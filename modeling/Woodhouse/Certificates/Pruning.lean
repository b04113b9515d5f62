import Woodhouse.Certificates.Versions

namespace Woodhouse.Certificates
open Effects

variable {lib : Library} {settings : Settings}

/-- The execution read this release, or published it itself. -/
def Saw (document : ReleaseDocument) (h : List RenewalEvent) : Prop :=
  (∃ name value, (⟨.accessSecretVersion .release name,.ok value⟩ : RenewalEvent) ∈ h ∧
    value.data = .releaseManifest document) ∨
  ∃ n, (⟨.addSecretVersion .release (.releaseManifest document),.ok n⟩ : RenewalEvent) ∈ h

theorem Saw.mono {document : ReleaseDocument} {h h' : List RenewalEvent} (hs : Saw document h)
    (hp : h <+: h') : Saw document h' := by
  rcases hs with ⟨name,value,hm,hd⟩ | ⟨n,hm⟩
  · exact .inl ⟨name,value,hp.subset hm,hd⟩
  · exact .inr ⟨n,hp.subset hm⟩

/-- A material version is destroyed only below what a release the execution saw names. -/
def Prunes (h : List RenewalEvent) : Call → Prop
  | .destroySecretVersion secret n => secret.isMaterial = true →
      ∃ document, Saw document h ∧ ∃ m, document.reference secret = some m ∧ n < m
  | _ => True

/-- The retained versions are those of a release the execution saw. -/
def Backed (retained : Retained) (h : List RenewalEvent) : Prop :=
  ∃ document, Saw document h ∧ document.certVersion = some retained.certVersion ∧
    document.keyVersion = some retained.keyVersion ∧
    document.stateVersion = some retained.stateVersion

theorem Backed.mono {retained : Retained} {h h' : List RenewalEvent} (hb : Backed retained h)
    (hp : h <+: h') : Backed retained h' := by
  obtain ⟨document,hs,hv⟩ := hb
  exact ⟨document,hs.mono hp,hv⟩

def Call.destroys : Call → Bool
  | .destroySecretVersion .. => true
  | _ => false

/-- A program with no destroy call. -/
abbrev Harmless {α : Type} (p : Renewal α) : Prop := Only (fun call => call.destroys = false) p

theorem Harmless.prunes {α : Type} {p : Renewal α} (hp : Harmless p) (h : List RenewalEvent) :
    Obeys Prunes (fun h' _ => h <+: h') p h := by
  refine hp.obeys ?_ h
  intro h call hc
  cases call with
  | destroySecretVersion => cases hc
  | _ => trivial

/-- A call that neither writes the store nor runs Certbot. -/
def Call.consults : Call → Bool
  | .addSecretVersion .. => false
  | .destroySecretVersion .. => false
  | .certbot _ => false
  | _ => true

abbrev Consults {α : Type} (p : Renewal α) : Prop := Only (fun call => call.consults = true) p

theorem Consults.harmless {α : Type} {p : Renewal α} (hp : Consults p) : Harmless p := by
  refine hp.imp ?_
  intro call hc
  cases call with
  | destroySecretVersion => cases hc
  | _ => rfl

theorem Consults.prunes {α : Type} {p : Renewal α} (hp : Consults p) (h : List RenewalEvent) :
    Obeys Prunes (fun h' _ => h <+: h') p h := hp.harmless.prunes h

section Consults

theorem consults_perform {call : Call} (hc : call.consults = true) : Consults (perform call) :=
  (only_perform call).mpr hc

theorem consults_readSecret (secret : Secret) (name : VersionName) (missingOk : Bool) :
    Consults (readSecret secret name missingOk) := by
  refine Only.tryCatch ((consults_perform rfl).bind (fun _ => trivial)) ?_
  intro e
  cases e with
  | notFound => cases missingOk <;> trivial
  | _ => trivial

theorem consults_certificateIsDue (material : CertificateMaterial) :
    Consults (certificateIsDue material) := by
  refine (consults_perform rfl).bind ?_
  intro checkedAt
  dsimp only
  split <;> trivial

theorem consults_validateCertificate (fullchain : Bytes) (hostname : String)
    (minimum : Option Int) : Consults (validateCertificate lib fullchain hostname minimum) := by
  unfold validateCertificate
  split
  · refine (only_ofExcept _).bind ?_
    intro leaf
    split
    · trivial
    · split
      · trivial
      · refine (consults_perform rfl).bind ?_
        intro checkedAt
        split <;> trivial
  · trivial

theorem consults_loadAndValidateMaterial (config : ConfigDir) (hostname : String) :
    Consults (loadAndValidateMaterial lib config hostname) := by
  refine (only_ofExcept _).bind (fun fullchain => (only_ofExcept _).bind (fun privateKey => ?_))
  refine (consults_validateCertificate _ _ _).bind ?_
  intro material
  refine (only_ofExcept _).bind (fun leaf => (only_ofExcept _).bind (fun keyPublic => ?_))
  split <;> trivial

theorem consults_activeReleaseMaterial (active : ActiveRelease) :
    Consults (activeReleaseMaterial lib settings active) := by
  refine (consults_readSecret _ _ _).bind ?_
  intro value
  cases value with
  | none => trivial
  | some value =>
    refine (consults_validateCertificate _ _ _).bind ?_
    intro material
    split <;> trivial

theorem consults_validateCandidate (material : CertificateMaterial) (trust : TrustProfile) :
    Consults (validateCandidateAgainstTrustProfile lib material trust) := by
  unfold validateCandidateAgainstTrustProfile
  split
  · trivial
  · refine (consults_perform rfl).bind ?_
    intro code
    split
    · trivial
    · refine (consults_perform rfl).bind ?_
      intro code
      split <;> trivial

theorem consults_deployed (marker : List Char) (leafSha256 : String) :
    Consults (deployed settings marker leafSha256) := by
  refine (consults_perform rfl).bind ?_
  intro status
  split
  · exact (consults_perform rfl).bind (fun _ => trivial)
  · trivial

theorem consults_pollDeployment (marker : List Char) (leafSha256 : String) (polls : Nat) :
    Consults (pollDeployment settings marker leafSha256 polls) := by
  induction polls with
  | zero => trivial
  | succ polls ih =>
    refine (consults_deployed _ _).bind ?_
    intro done
    split
    · trivial
    · exact ih

theorem consults_deployRelease (releaseVersion : Nat) (leafSha256 : String) :
    Consults (deployRelease settings releaseVersion leafSha256) := by
  refine (consults_deployed _ _).bind ?_
  intro done
  split
  · trivial
  · exact (consults_perform rfl).bind (fun _ => (consults_perform rfl).bind
      (fun polls => consults_pollDeployment _ _ polls))

theorem consults_requireReadiness (trust : TrustProfile) :
    Consults (requireTrustCutoverReadiness trust) := by
  refine (consults_readSecret _ _ _).bind ?_
  intro value
  cases value with
  | none => trivial
  | some value =>
    dsimp only
    split
    · split <;> trivial
    · trivial
    · trivial

theorem consults_storedMaterial (config : ConfigDir) :
    Consults (storedMaterial lib settings config) := by
  refine Only.tryCatch ((consults_loadAndValidateMaterial _ _).bind (fun material =>
    (consults_certificateIsDue material).bind (fun _ => trivial))) ?_
  intro e
  cases e <;> trivial

theorem consults_restoredConfig : Consults (restoredConfig lib) := by
  refine (consults_readSecret _ _ _).bind ?_
  intro value
  cases value with
  | none => trivial
  | some value => exact only_ofExcept _

end Consults

section Harmless

theorem harmless_perform {call : Call} (hc : call.destroys = false) : Harmless (perform call) :=
  (only_perform call).mpr hc

theorem harmless_runCertbot (config : ConfigDir) : Harmless (runCertbot config) := by
  refine (harmless_perform rfl).bind ?_
  intro result
  split <;> trivial

theorem harmless_candidateMaterial : Harmless (candidateMaterial lib settings) := by
  refine consults_restoredConfig.harmless.bind ?_
  intro config
  refine (consults_storedMaterial config).harmless.bind ?_
  intro stored
  cases stored with
  | some material => trivial
  | none =>
    exact (harmless_runCertbot config).bind (fun config =>
      (consults_loadAndValidateMaterial config _).harmless.bind (fun _ => trivial))

end Harmless

section Prune
variable {h : List RenewalEvent}

theorem prunes_destroyOlder {secret : Secret} {number : Nat} {versions : List ListedVersion}
    (hb : secret.isMaterial = true →
      ∃ document, Saw document h ∧ document.reference secret = some number) :
    Obeys Prunes (fun h' _ => h <+: h') (destroyOlder secret number versions) h := by
  induction versions generalizing h with
  | nil => exact List.prefix_refl h
  | cons version rest ih =>
    unfold destroyOlder
    split
    · exact ih hb
    · rename_i hold
      refine ⟨?_,?_⟩
      · intro hs
        obtain ⟨document,hsaw,hr⟩ := hb hs
        exact ⟨document,hsaw,number,hr,by omega⟩
      · intro r
        have hp := List.prefix_append h
          [(⟨.destroySecretVersion secret version.number,r⟩ : RenewalEvent)]
        cases r with
        | error e => exact hp
        | ok _ =>
          refine (ih ?_).mono (fun _ _ hq => hp.trans hq)
          intro hs
          obtain ⟨document,hsaw,hr⟩ := hb hs
          exact ⟨document,hsaw.mono hp,hr⟩

theorem prunes_pruneSecret {secret : Secret} {name : VersionName}
    (hb : secret.isMaterial = true →
      ∃ document, Saw document h ∧ document.reference secret = name.number?) :
    Obeys Prunes (fun h' _ => h <+: h') (pruneSecret secret name) h := by
  unfold pruneSecret
  cases name with
  | latest => exact List.prefix_refl h
  | invalid text => exact List.prefix_refl h
  | number n =>
    unfold secretVersionNumber
    by_cases hn : n < 1
    · simp only [hn,if_true]
      exact List.prefix_refl h
    · simp only [hn,if_false]
      refine ⟨trivial,?_⟩
      intro r
      have hp := List.prefix_append h [(⟨.listSecretVersions secret,r⟩ : RenewalEvent)]
      cases r with
      | error e => exact hp
      | ok versions =>
        refine (prunes_destroyOlder ?_).mono (fun _ _ hq => hp.trans hq)
        intro hs
        obtain ⟨document,hsaw,hr⟩ := hb hs
        exact ⟨document,hsaw.mono hp,hr⟩

theorem prunes_pruneOld {retained : Retained} (hb : Backed retained h) :
    Obeys Prunes (fun _ _ => True) (pruneOldReleaseVersions retained) h := by
  have hreference : ∀ h', h <+: h' → ∃ document, Saw document h' ∧
      document.reference .cert = retained.certVersion.number? ∧
      document.reference .key = retained.keyVersion.number? ∧
      document.reference .state = retained.stateVersion.number? := by
    intro h' hp
    obtain ⟨document,hs,hc,hk,hst⟩ := hb.mono hp
    refine ⟨document,hs,?_,?_,?_⟩
    · simp [ReleaseDocument.reference,hc]
    · simp [ReleaseDocument.reference,hk]
    · simp [ReleaseDocument.reference,hst]
  refine (prunes_pruneSecret (fun _ => ?_)).bind ?_ (fun _ _ _ => trivial)
  · obtain ⟨document,hs,hc,_,_⟩ := hreference h (List.prefix_refl h)
    exact ⟨document,hs,hc⟩
  intro h₁ _ hp₁
  refine (prunes_pruneSecret (fun _ => ?_)).bind ?_ (fun _ _ _ => trivial)
  · obtain ⟨document,hs,_,hk,_⟩ := hreference h₁ hp₁
    exact ⟨document,hs,hk⟩
  intro h₂ _ hp₂
  refine (prunes_pruneSecret (fun _ => ?_)).bind ?_ (fun _ _ _ => trivial)
  · obtain ⟨document,hs,_,_,hst⟩ := hreference h₂ (hp₁.trans hp₂)
    exact ⟨document,hs,hst⟩
  intro h₃ _ _
  exact (prunes_pruneSecret (fun hs => by cases hs)).mono (fun _ _ _ => trivial)

/-- What is pruned after a publication is backed by the release just added. -/
theorem prunes_publishRelease {material : CertificateMaterial} {config : ConfigDir}
    {trust : TrustProfile} :
    Obeys Prunes (fun h' r => ∀ retained, r = .ok retained → Backed retained h')
      (publishRelease lib settings material config trust) h := by
  refine ((harmless_perform rfl).prunes h).bind ?_ (fun _ _ _ _ hr => by cases hr)
  intro h₁ certVersion _
  refine ((harmless_perform rfl).prunes h₁).bind ?_ (fun _ _ _ _ hr => by cases hr)
  intro h₂ keyVersion _
  refine ((only_ofExcept (P := fun call => Call.destroys call = false) _).obeys ?_ h₂).bind ?_
    (fun _ _ _ _ hr => by cases hr)
  · intro h call hc
    cases call with
    | destroySecretVersion => cases hc
    | _ => trivial
  intro h₃ archive _
  refine ((harmless_perform rfl).prunes h₃).bind ?_ (fun _ _ _ _ hr => by cases hr)
  intro h₄ stateVersion _
  refine ⟨trivial,?_⟩
  intro r
  cases r with
  | error e =>
    intro retained hr
    cases hr
  | ok releaseVersion =>
    refine ((consults_deployRelease releaseVersion _).prunes _).bind ?_
      (fun _ _ _ _ hr => by cases hr)
    intro h₅ _ hp retained hr
    cases hr
    refine ⟨_,.inr ⟨releaseVersion,hp.subset (List.mem_append_right _ List.mem_cons_self)⟩,?_⟩
    exact ⟨rfl,rfl,rfl⟩

theorem prunes_publishAndPrune {material : CertificateMaterial} {config : ConfigDir}
    {trust : TrustProfile} :
    Obeys Prunes (fun _ _ => True) (do
      let published ← publishRelease lib settings material config trust
      pruneOldReleaseVersions published
      return Outcome.renewed) h := by
  refine prunes_publishRelease.bind ?_ (fun _ _ _ => trivial)
  intro h₁ retained hb
  exact (prunes_pruneOld (hb retained rfl)).bind (fun _ _ _ => trivial) (fun _ _ _ => trivial)

theorem prunes_deployAndPrune {active : ActiveRelease} {leafSha256 : String}
    (hb : Backed active.retained h) :
    Obeys Prunes (fun _ _ => True) (do
      deployRelease settings active.releaseVersion leafSha256
      pruneOldReleaseVersions active.retained
      return Outcome.healthy) h := by
  refine ((consults_deployRelease _ _).prunes h).bind ?_ (fun _ _ _ => trivial)
  intro h₁ _ hp
  exact (prunes_pruneOld (hb.mono hp)).bind (fun _ _ _ => trivial) (fun _ _ _ => trivial)

theorem prunes_issueRelease {active : Option ActiveRelease} {trust : TrustProfile}
    (hb : ∀ release, active = some release → Backed release.retained h) :
    Obeys Prunes (fun _ _ => True) (issueRelease lib settings active trust) h := by
  refine (harmless_candidateMaterial.prunes h).bind ?_ (fun _ _ _ => trivial)
  intro h₁ candidate hp₁
  refine ((consults_validateCandidate _ _).prunes h₁).bind ?_ (fun _ _ _ => trivial)
  intro h₂ _ hp₂
  cases active with
  | none =>
    refine ((consults_requireReadiness trust).prunes h₂).bind ?_ (fun _ _ _ => trivial)
    intro h₃ _ _
    exact prunes_publishAndPrune
  | some release =>
    have hb₂ := (hb release rfl).mono (hp₁.trans hp₂)
    dsimp only
    split
    · refine ((consults_requireReadiness trust).prunes h₂).bind ?_ (fun _ _ _ => trivial)
      intro h₃ _ hp₃
      split
      · exact prunes_deployAndPrune (hb₂.mono hp₃)
      · exact prunes_publishAndPrune
    · split
      · exact prunes_deployAndPrune hb₂
      · exact prunes_publishAndPrune

theorem prunes_keepOrIssue {active : Option ActiveRelease} {trust : TrustProfile}
    (hb : ∀ release, active = some release → Backed release.retained h) :
    Obeys Prunes (fun _ _ => True) (keepOrIssue lib settings active trust) h := by
  unfold keepOrIssue
  split
  · rename_i release
    split
    · refine ((consults_activeReleaseMaterial release).prunes h).bind ?_ (fun _ _ _ => trivial)
      intro h₁ material hp₁
      refine ((consults_certificateIsDue material).prunes h₁).bind ?_ (fun _ _ _ => trivial)
      intro h₂ due hp₂
      have hb₂ := (hb release rfl).mono (hp₁.trans hp₂)
      split
      · refine prunes_issueRelease ?_
        intro release' hr
        cases hr
        exact hb₂
      · refine ((consults_validateCandidate _ _).prunes h₂).bind ?_ (fun _ _ _ => trivial)
        intro h₃ _ hp₃
        exact prunes_deployAndPrune (hb₂.mono hp₃)
    · exact prunes_issueRelease hb
  · exact prunes_issueRelease (fun _ hr => by cases hr)

end Prune

/-- The active release an execution works with is the manifest it read. -/
theorem parseRelease_backed {value : SecretValue} {release : ActiveRelease}
    (h : parseRelease settings (some value) = .ok (some release)) :
    ∃ document, value.data = .releaseManifest document ∧
      document.certVersion = some release.certVersion ∧
      document.keyVersion = some release.keyVersion ∧
      document.stateVersion = some release.stateVersion := by
  unfold parseRelease at h
  dsimp only at h
  split at h
  · rename_i document hd
    split at h
    · cases h
    · split at h
      · rename_i hc hk hs _ _
        cases h
        exact ⟨document,hd,hc,hk,hs⟩
      · cases h
  · cases h
  · cases h

theorem prunes_readRelease (missingOk : Bool) (h : List RenewalEvent) :
    Obeys Prunes (fun h' r => ∀ value, r = .ok (some value) →
      (⟨.accessSecretVersion .release .latest,.ok value⟩ : RenewalEvent) ∈ h')
      (readSecret .release .latest missingOk) h := by
  refine ⟨trivial,?_⟩
  intro r
  cases r with
  | ok value =>
    intro value' hv
    cases hv
    exact List.mem_append_right _ List.mem_cons_self
  | error e =>
    cases e with
    | notFound => cases missingOk <;> exact fun _ hv => by cases hv
    | _ => exact fun _ hv => by cases hv

theorem prunes_renewCertificate (h : List RenewalEvent) :
    Obeys Prunes (fun _ _ => True) (renewCertificate lib settings) h := by
  refine (prunes_readRelease true h).bind ?_ (fun _ _ _ => trivial)
  intro h₁ activeValue hread
  cases hparse : parseRelease settings activeValue with
  | error e => trivial
  | ok active =>
    refine ((consults_readSecret .trustProfile .latest false).prunes h₁).bind ?_
      (fun _ _ _ => trivial)
    intro h₂ trustValue hp
    cases trustValue with
    | none => trivial
    | some trustValue =>
      dsimp only
      cases loadTrustProfile lib settings.trustProfileId trustValue.data.data with
      | error e => trivial
      | ok trust =>
        refine prunes_keepOrIssue ?_
        intro release hr
        subst hr
        cases activeValue with
        | none => cases hparse
        | some value =>
          obtain ⟨document,hd,hv⟩ := parseRelease_backed hparse
          exact ⟨document,.inl ⟨.latest,value,hp.subset (hread value rfl),hd⟩,hv⟩

abbrev RenewalLog (ι : Type) := Log ι Call Call.Ret Exc

section Runs
variable {ι : Type}

/-- The releases published along a log. -/
def publishedBy (log : RenewalLog ι) : List ReleaseDocument :=
  log.filterMap (fun entry => match entry.2 with
    | ⟨.addSecretVersion .release (.releaseManifest document),.ok _⟩ => some document
    | _ => none)

/-- In the order of publication, no release names a lower certificate, key or state
version than one before it. -/
def PublishesInOrder (sm₀ : SecretManager) (log : RenewalLog ι) : Prop :=
  (sm₀.published ++ publishedBy log).Pairwise (fun earlier later => noOlder earlier later = true)

instance (sm₀ : SecretManager) (log : RenewalLog ι) : Decidable (PublishesInOrder sm₀ log) :=
  inferInstanceAs (Decidable (List.Pairwise _ _))

/-- Every destroyed material version is older than what some published release names. -/
def OnlyOlderDestroyed (sm : SecretManager) : Prop :=
  ∀ secret n, secret.isMaterial = true → sm.Destroyed secret n →
    ∃ document ∈ sm.published, ∃ m, document.reference secret = some m ∧ n < m

theorem published_step {sm sm' : SecretManager} {e : RenewalEvent} (h : StoreStep sm e sm')
    (i : ι) : sm'.published = sm.published ++ publishedBy [(i,e)] := by
  cases h with
  | added secret payload =>
    rw [SecretManager.published_add]
    cases secret with
    | release => cases payload <;> rfl
    | _ => rfl
  | destroyed secret n =>
    rw [SecretManager.published_destroy]
    exact (List.append_nil _).symm
  | read => exact (List.append_nil _).symm
  | other e noAdd noRead =>
    obtain ⟨call,r⟩ := e
    cases call with
    | addSecretVersion secret payload =>
      cases r with
      | ok n => exact absurd rfl (noAdd secret payload n)
      | error e =>
        cases secret with
        | release => cases payload <;> exact (List.append_nil _).symm
        | _ => exact (List.append_nil _).symm
    | _ => exact (List.append_nil _).symm

variable [DecidableEq ι] {α : Type} {ps₀ ps : ι → Renewal α} {sm₀ sm : SecretManager}
  {log : RenewalLog ι}

theorem published_run (run : Run renewalMachine ps₀ sm₀ log ps sm) :
    sm.published = sm₀.published ++ publishedBy log := by
  refine run.invariant (I := fun log sm => sm.published = sm₀.published ++ publishedBy log)
    (List.append_nil _).symm ?_
  intro log ps sm i call k c r sm' _ _ does ih
  rw [published_step (storeStep does) i,ih,List.append_assoc]
  congr 1
  exact List.filterMap_append.symm

/-- What an execution saw of a release is there. -/
theorem saw_published (run : Run renewalMachine ps₀ sm₀ log ps sm) {i : ι}
    {document : ReleaseDocument} (hs : Saw document (localEvents i log)) :
    document ∈ sm.published := by
  revert hs
  refine run.invariant (I := fun log sm => Saw document (localEvents i log) →
    document ∈ sm.published) ?_ ?_
  · intro hs
    rcases hs with ⟨_,_,hm,_⟩ | ⟨_,hm⟩ <;> cases hm
  · intro log ps sm j call k c r sm' _ _ does ih hs
    have hstep := storeStep does
    have hgrow : ∀ d, d ∈ sm.published → d ∈ sm'.published := by
      intro d hd
      rw [published_step hstep j]
      exact List.mem_append_left _ hd
    rcases hs with ⟨name,value,hm,hd⟩ | ⟨n,hm⟩
    · rcases List.mem_append.mp (mem_local.mp hm) with hm | hm
      · exact hgrow _ (ih (.inl ⟨name,value,mem_local.mpr hm,hd⟩))
      · cases List.mem_singleton.mp hm
        cases hstep with
        | read _ _ _ stored => exact sm.accessNamed_published stored hd
        | other _ _ noRead => exact absurd rfl (noRead .release name value)
    · rcases List.mem_append.mp (mem_local.mp hm) with hm | hm
      · exact hgrow _ (ih (.inr ⟨n,mem_local.mpr hm⟩))
      · cases List.mem_singleton.mp hm
        rw [published_step hstep i]
        exact List.mem_append_right _ List.mem_cons_self

theorem onlyOlder_run {settings : ι → Settings} {ps : ι → Renewal Outcome} (hsettled : OnlyOlderDestroyed sm₀)
    (run : Run renewalMachine (fun i => renewCertificate lib (settings i)) sm₀ log ps sm) :
    OnlyOlderDestroyed sm := by
  refine run.invariant (I := fun _ sm => OnlyOlderDestroyed sm) hsettled ?_
  intro log ps sm i call k c r sm' before turn does ih
  have hallowed := before.allowed (prunes_renewCertificate []) turn
  have hstep := storeStep does
  intro secret n hs hd
  cases hstep with
  | added s payload =>
    obtain ⟨document,hm,hr⟩ := ih secret n hs (sm.destroyed_add hd)
    rw [SecretManager.published_add]
    exact ⟨document,List.mem_append_left _ hm,hr⟩
  | destroyed s m =>
    rw [SecretManager.published_destroy]
    rcases sm.destroyed_destroy hd with hd | ⟨rfl,rfl⟩
    · exact ih secret n hs hd
    · obtain ⟨document,hsaw,hr⟩ := hallowed hs
      exact ⟨document,saw_published before hsaw,hr⟩
  | read => exact ih secret n hs hd
  | other => exact ih secret n hs hd

/-- Renewals that publish in the order of the versions they name never destroy what
the current release names. -/
theorem live_references {settings : ι → Settings} {ps : ι → Renewal Outcome} (hsettled : OnlyOlderDestroyed sm₀)
    (run : Run renewalMachine (fun i => renewCertificate lib (settings i)) sm₀ log ps sm)
    (hordered : PublishesInOrder sm₀ log) : sm.LiveReferences := by
  refine sm.live_of_ordered ?_ (onlyOlder_run hsettled run)
  rw [published_run run]
  exact hordered

end Runs

/-- A library whose certificates are told apart by their first byte. -/
def plainLibrary : Library :=
  { pemCertificates := fun pem => [pem,pem]
    loadCertificate := fun pem => .ok
      { dnsNames := some ["edge"], notBefore := 0, notAfter := days 90
        sha256 := if pem = [1] then "first" else "second", publicKey := [] }
    loadCertificates := fun _ => .ok [{ pem := [], der := [], basicConstraintsCa := some true }]
    publicKeyOf := fun _ => .ok []
    sha256Hex := fun _ => "digest"
    openArchive := fun _ => .ok (0,{ fullchain := none, privateKey := none, lineage := [] })
    writeArchive := fun _ => [] }

def plainSettings : Settings := { hostname := "edge", trustProfileId := "trust" }

/-- An approved trust profile and no release yet. -/
def approvedStore : SecretManager :=
  { versions := fun
      | .trustProfile => [{ payload := .bytes [] }]
      | .trustReadiness =>
        [{ payload := .readiness
            { ready := true, trustProfileId := some "trust", trustProfileSha256 := some "digest"
              requiredVehicleCount := some 0 } }]
      | _ => [] }

/-- A first renewal up to its validated candidate: no release, the trust profile, no
ACME state, Certbot, the clock, OpenSSL, the readiness document. -/
def candidateChoices (fullchain : Bytes) : List Choice :=
  [.success,.success,.success,
    .certbotRan
      { returncode := 0, output := ""
        config := { fullchain := some fullchain, privateKey := some [], lineage := [] } },
    .clock 0,.code 0,.success]

/-- The four additions and a deployment found active at once. -/
def publicationChoices (marker leaf : String) : List Choice :=
  [.success,.success,.success,.success,.text (some marker),.text (some leaf)]

def turns (execution : Bool) (choices : List Choice) : List (Bool × Choice) :=
  choices.map (fun c => (execution,c))

/-- One execution adds the older certificate, the other publishes, and prunes it while
the first publishes. -/
def overtakenSchedule : List (Bool × Choice) :=
  turns false (candidateChoices [1]) ++ turns true (candidateChoices [2]) ++
  turns false [.success] ++ turns true (publicationChoices "ok:tls=1:second" "second") ++
  turns false [.success,.success,.success] ++ turns true [.success,.success]

/-- The current release names a certificate that is destroyed. -/
def danglingCertificate (sm : SecretManager) : Bool :=
  sm.latestRelease.any (fun document => (document.reference .cert).any (fun n =>
    (sm.version .cert n).any (fun v => v.destroyed)))

theorem not_live_of_dangling {sm : SecretManager} (h : danglingCertificate sm = true) :
    ¬ sm.LiveReferences := by
  obtain ⟨document,hd,h⟩ := (Option.any_eq_true ..).mp h
  obtain ⟨n,hn,h⟩ := (Option.any_eq_true ..).mp h
  obtain ⟨v,hv,h⟩ := (Option.any_eq_true ..).mp h
  intro hl
  exact hl document hd .cert n hn ⟨v,hv,h⟩

theorem overtaken_release_dangles :
    ∃ log ps sm, Run renewalMachine
        (fun _ : Bool => renewCertificate plainLibrary plainSettings) approvedStore log ps sm ∧
      ¬ sm.LiveReferences := by
  obtain ⟨log,ps,sm,run,hp⟩ := run_of_schedule renewalMachine
    (fun _ : Bool => renewCertificate plainLibrary plainSettings) approvedStore
    overtakenSchedule (fun x => danglingCertificate x.2.2) (by rfl)
  exact ⟨log,ps,sm,run,not_live_of_dangling hp⟩

/-- Two deployments of the renewer, the second with a shorter deadline. -/
def deploymentSettings (execution : Bool) : Settings :=
  { plainSettings with deploymentTimeoutSeconds := if execution then 300 else 600 }

/-- Both find no release. The first publishes before the second, which is deployed after it and
prunes one older version of each secret. -/
def overlappingSchedule : List (Bool × Choice) :=
  turns false (candidateChoices [1]) ++ turns true (candidateChoices [2]) ++
  turns false (List.replicate 4 .success) ++ turns true (List.replicate 4 .success) ++
  turns false [.text (some "ok:tls=1:first"),.text (some "first")] ++
  turns true [.text (some "ok:tls=2:second"),.text (some "second")] ++
  turns false (List.replicate 4 .success) ++ turns true (List.replicate 8 .success)

theorem live_references_overlapping :
    ∃ log ps sm, Run renewalMachine
        (fun i => renewCertificate plainLibrary (deploymentSettings i)) approvedStore log ps sm ∧
      (∀ i, (ps i).finished = true) ∧ sm.Destroyed .cert 1 ∧ sm.LiveReferences := by
  obtain ⟨log,ps,sm,run,hp⟩ := run_of_schedule renewalMachine
    (fun i => renewCertificate plainLibrary (deploymentSettings i)) approvedStore
    overlappingSchedule (fun x => (x.2.1 false).finished && (x.2.1 true).finished &&
      (x.2.2.version .cert 1).any (fun v => v.destroyed) &&
      decide (PublishesInOrder approvedStore x.1)) (by rfl)
  simp only [Bool.and_eq_true] at hp
  obtain ⟨⟨⟨hf,ht⟩,hd⟩,ho⟩ := hp
  refine ⟨log,ps,sm,run,fun i => by cases i <;> assumption,?_,?_⟩
  · obtain ⟨v,hv,hd⟩ := (Option.any_eq_true ..).mp hd
    exact ⟨v,hv,hd⟩
  · refine live_references ?_ run (of_decide_eq_true ho)
    intro secret n hs hdestroyed
    obtain ⟨v,hv,_⟩ := hdestroyed
    unfold SecretManager.version at hv
    split at hv
    · cases hv
    · cases secret with
      | cert | key | state => cases hv
      | release | trustProfile | trustReadiness => cases hs

end Woodhouse.Certificates
