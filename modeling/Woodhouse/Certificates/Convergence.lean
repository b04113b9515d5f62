import Woodhouse.Certificates.Survival
import Woodhouse.Effects.Endings

namespace Woodhouse.Certificates
open Effects

deriving instance DecidableEq for CertbotRun

/-- `_certificate_is_due` at a time. -/
def dueAt (notBefore notAfter now : Int) : Bool :=
  let lifetime := notAfter - notBefore
  if lifetime ≤ 0 then true
  else
    let divisor := if lifetime ≤ shortLivedCertificateLifetime then 2 else 3
    decide (notAfter - now < divideAndRound lifetime divisor)

/-- One time, every service answers, Certbot does what `run` says, and OpenSSL accepts the
chains it is given. -/
def served (now : Int) (run : CertbotRun) (_ : SecretManager) : Call → Choice → Bool
  | _, .failure _ => false
  | _, .certbotTimeout => false
  | .utcNow, .clock t => t = now
  | .certbot _, .certbotRan result => result = run
  | .opensslVerify partialChain _ _ _, .code code => code = 0 ∨ partialChain = false
  | _, _ => true

abbrev servedMachine (now : Int) (run : CertbotRun) :
    Machine Call Call.Ret Exc SecretManager Choice :=
  renewalMachine.restrict (served now run)

def Call.isCertbot : Call → Bool
  | .certbot _ => true
  | _ => false

def callsCertbot (h : List RenewalEvent) : Bool := h.any (fun e => e.op.isCertbot)

/-- A Certbot run that issued `leaf` for the hostname, with its chain, its key and a state
that can be stored. -/
structure Issued (lib : Library) (settings : Settings) (run : CertbotRun) (leaf : Leaf) : Prop where
  succeeded : run.returncode = 0
  chain : ∃ fullchain first second rest, run.config.fullchain = some fullchain ∧
    lib.pemCertificates fullchain = first :: second :: rest ∧ lib.loadCertificate first = .ok leaf
  san : ∃ names, leaf.dnsNames = some names ∧ settings.hostname ∈ names
  key : ∃ privateKey, run.config.privateKey = some privateKey ∧
    lib.publicKeyOf privateKey = .ok leaf.publicKey
  archived : ∃ archive, archiveState lib run.config = .ok archive

/-- The active release is not of this leaf already. -/
def Fresh (settings : Settings) (sm : SecretManager) (leaf : Leaf) : Prop :=
  ∀ value active, sm.accessNamed .release .latest = .ok value →
    parseRelease settings (some value) = .ok (some active) → active.leafSha256 ≠ leaf.sha256

/-- The active release records the trust profile. -/
def RecordedTrust (settings : Settings) (sm : SecretManager) (trust : TrustProfile) : Prop :=
  ∃ value active, sm.accessNamed .release .latest = .ok value ∧
    parseRelease settings (some value) = .ok (some active) ∧ trustMatches active trust = true

/-- The cutover to the trust profile is approved. -/
def ApprovedTrust (sm : SecretManager) (trust : TrustProfile) : Prop :=
  ∃ value document, sm.accessNamed .trustReadiness .latest = .ok value ∧
    value.data = .readiness document ∧ document.ready = true ∧
    document.trustProfileId = some trust.profileId ∧
    document.trustProfileSha256 = some trust.sha256 ∧
    document.requiredVehicleCount.any (fun count => 0 ≤ count) = true

/-- The trust profile that is stored now. -/
def StoredTrust (lib : Library) (settings : Settings) (sm : SecretManager) (trust : TrustProfile) :
    Prop :=
  ∃ value, sm.accessNamed .trustProfile .latest = .ok value ∧
    loadTrustProfile lib settings.trustProfileId value.data.data = .ok trust

def TrustSettled (lib : Library) (settings : Settings) (sm : SecretManager) : Prop :=
  ∀ trust, StoredTrust lib settings sm trust →
    RecordedTrust settings sm trust ∨ ApprovedTrust sm trust

def timedOut : Exc := .runtime "certificate_deployment_verification_timed_out"

def floorError : Exc := .value "certificate validity is shorter than the deployment safety window"

/-- The latest release is of the leaf, and what it names is stored. -/
def ReleasedLeaf (lib : Library) (sm : SecretManager) (leaf : Leaf) : Prop :=
  ∃ document, sm.latestRelease = some document ∧ document.leafSha256 = some leaf.sha256 ∧
    Backing lib sm document

/-- The certificate is released, and another run at the same time keeps it without Certbot,
unless it cannot verify the deployment. -/
structure Converged (lib : Library) (settings : Settings) (now : Int) (leaf : Leaf)
    (q : Renewal Outcome) (sm : SecretManager) : Prop where
  renewed : q = .ret .renewed
  released : ReleasedLeaf lib sm leaf
  healthy : ∀ run es q' sm', Path (servedMachine now run) (renewCertificate lib settings) sm es q' sm' →
    q'.finished = true → q' ≠ .raise timedOut → q' = .ret .healthy ∧ callsCertbot es = false

variable {lib : Library} {settings : Settings} {now : Int} {run : CertbotRun}
  {sm sm' : SecretManager} {h : List RenewalEvent}

theorem certificateIsDue_eq (material : CertificateMaterial) :
    certificateIsDue material = (do
      let checkedAt ← perform .utcNow
      return dueAt material.notBefore material.notAfter checkedAt) := by
  unfold certificateIsDue dueAt
  congr 1
  funext checkedAt
  dsimp only
  split <;> rfl

section Serving

/-- What a call does when every service answers. -/
def Serves (now : Int) (run : CertbotRun) (sm : SecretManager) :
    (call : Call) → Except Exc call.Ret → SecretManager → Prop
  | .accessSecretVersion secret version, r, sm' => r = sm.accessNamed secret version ∧ sm' = sm
  | .addSecretVersion secret payload, r, sm' =>
    r = .ok ((sm.versions secret).length + 1) ∧ sm' = sm.add secret payload
  | .listSecretVersions secret, r, sm' => r = .ok (sm.list secret) ∧ sm' = sm
  | .destroySecretVersion secret n, r, sm' =>
    ∀ v, sm.version secret n = some v → r = .ok () ∧ sm' = sm.destroy secret n
  | .utcNow, r, sm' => r = .ok now ∧ sm' = sm
  | .certbot _, r, sm' => r = .ok run ∧ sm' = sm
  | .opensslVerify partialChain _ _ _, r, sm' =>
    (∃ code, r = .ok code ∧ (code = 0 ∨ partialChain = false)) ∧ sm' = sm
  | .guestStatus, r, sm' => (∃ status, r = .ok status) ∧ sm' = sm
  | .publicLeafFingerprint _, r, sm' => (∃ fingerprint, r = .ok fingerprint) ∧ sm' = sm
  | .resetInstance, r, sm' => r = .ok () ∧ sm' = sm
  | .deadlinePolls _, r, sm' => (∃ polls, r = .ok polls) ∧ sm' = sm

theorem serves_of {call : Call} {c : Choice} {r : Except Exc call.Ret}
    (does : servedMachine now run sm call c = some (r,sm')) : Serves now run sm call r sm' := by
  obtain ⟨hcontract,hdoes⟩ := Machine.restrict_eq does
  cases c with
  | failure name => simp [served] at hcontract
  | success =>
    cases call with
    | accessSecretVersion | addSecretVersion | listSecretVersions | resetInstance =>
      cases hdoes
      exact ⟨rfl,rfl⟩
    | destroySecretVersion secret n =>
      intro v hv
      simp only [renewalMachine,hv] at hdoes
      cases hdoes
      exact ⟨rfl,rfl⟩
    | _ => cases hdoes
  | clock t =>
    cases call with
    | utcNow =>
      cases hdoes
      simp [served] at hcontract
      exact ⟨by rw [hcontract],rfl⟩
    | _ => cases hdoes
  | certbotRan result =>
    cases call with
    | certbot =>
      cases hdoes
      simp [served] at hcontract
      exact ⟨by rw [hcontract],rfl⟩
    | _ => cases hdoes
  | certbotTimeout => simp [served] at hcontract
  | code returncode =>
    cases call with
    | opensslVerify =>
      cases hdoes
      simp [served] at hcontract
      exact ⟨⟨_,rfl,hcontract⟩,rfl⟩
    | _ => cases hdoes
  | text value =>
    cases call with
    | guestStatus | publicLeafFingerprint =>
      cases hdoes
      exact ⟨⟨_,rfl⟩,rfl⟩
    | _ => cases hdoes
  | polls n =>
    cases call with
    | deadlinePolls =>
      cases hdoes
      exact ⟨⟨_,rfl⟩,rfl⟩
    | _ => cases hdoes

theorem served_perform {call : Call} {Q : List RenewalEvent → Except Exc call.Ret → SecretManager → Prop}
    (hq : ∀ r sm', Serves now run sm call r sm' → Q (h ++ [⟨call,r⟩]) r sm') :
    Ends (servedMachine now run) Q (perform call) h sm :=
  ends_perform.mpr (fun _ r sm' does => hq r sm' (serves_of does))

theorem callsCertbot_snoc {e : RenewalEvent} (he : e.op.isCertbot = false) :
    callsCertbot (h ++ [e]) = callsCertbot h := by
  simp [callsCertbot,he]

end Serving

section Reading
variable {α β : Type}

/-- The program only consults, and ends in `r`. -/
def Reads (now : Int) (run : CertbotRun) (sm : SecretManager) (p : Renewal α) (r : Except Exc α) :
    Prop :=
  ∀ h, Ends (servedMachine now run)
    (fun h' r' sm' => r' = r ∧ sm' = sm ∧ callsCertbot h' = callsCertbot h) p h sm

theorem reads_ofExcept (r : Except Exc α) : Reads now run sm (Prog.ofExcept r) r := by
  intro h
  rw [ends_ofExcept]
  exact ⟨rfl,rfl,rfl⟩

theorem Reads.bind {p : Renewal α} {f : α → Renewal β} {a : α} {r : Except Exc β}
    (hp : Reads now run sm p (.ok a)) (hf : Reads now run sm (f a) r) :
    Reads now run sm (p >>= f) r := by
  intro h
  refine (hp h).bind ?_ ?_
  · intro h' a' sm' hq
    obtain ⟨ha,rfl,hcalls⟩ := hq
    cases ha
    refine (hf h').mono ?_
    intro h'' r' sm'' hq
    obtain ⟨hr,hs,hcalls'⟩ := hq
    exact ⟨hr,hs,hcalls'.trans hcalls⟩
  · intro h' e sm' hq
    cases hq.1

theorem Reads.bind_error {p : Renewal α} {f : α → Renewal β} {e : Exc}
    (hp : Reads now run sm p (.error e)) : Reads now run sm (p >>= f) (.error e) := by
  intro h
  refine (hp h).bind ?_ ?_
  · intro h' a sm' hq
    cases hq.1
  · intro h' e' sm' hq
    obtain ⟨he,hs,hcalls⟩ := hq
    cases he
    exact ⟨rfl,hs,hcalls⟩

/-- What follows a program that only consults starts from the same store. -/
theorem Reads.ends_bind {p : Renewal α} {f : α → Renewal β} {a : α}
    {Q : List RenewalEvent → Except Exc β → SecretManager → Prop} (hp : Reads now run sm p (.ok a))
    (hf : ∀ h', callsCertbot h' = callsCertbot h → Ends (servedMachine now run) Q (f a) h' sm) :
    Ends (servedMachine now run) Q (p >>= f) h sm := by
  refine (hp h).bind ?_ ?_
  · intro h' a' sm' hq
    obtain ⟨ha,rfl,hcalls⟩ := hq
    cases ha
    exact hf h' hcalls
  · intro h' e sm' hq
    cases hq.1

theorem reads_access (secret : Secret) (version : VersionName) :
    Reads now run sm (perform (.accessSecretVersion secret version))
      (sm.accessNamed secret version) := by
  intro h
  apply served_perform
  intro r sm' hserves
  obtain ⟨rfl,rfl⟩ := hserves
  exact ⟨rfl,rfl,callsCertbot_snoc rfl⟩

theorem reads_utcNow : Reads now run sm (perform .utcNow) (.ok now) := by
  intro h
  apply served_perform
  intro r sm' hserves
  obtain ⟨rfl,rfl⟩ := hserves
  exact ⟨rfl,rfl,callsCertbot_snoc rfl⟩

theorem reads_readSecret {secret : Secret} {version : VersionName} {value : SecretValue}
    (hv : sm.accessNamed secret version = .ok value) (missingOk : Bool) :
    Reads now run sm (readSecret secret version missingOk) (.ok (some value)) := by
  intro h
  unfold readSecret
  have hread := (reads_access secret version : Reads now run sm _ _) h
  refine Ends.tryCatch (hread.bind (R := fun h' r' sm' => r' = .ok (some value) ∧ sm' = sm ∧
    callsCertbot h' = callsCertbot h) ?_ ?_) ?_ ?_
  · intro h' a sm' hq
    obtain ⟨ha,hs,hcalls⟩ := hq
    rw [hv] at ha
    cases ha
    exact ⟨rfl,hs,hcalls⟩
  · intro h' e sm' hq
    rw [hv] at hq
    cases hq.1
  · intro h' a sm' hq
    exact hq
  · intro h' e sm' hq
    cases hq.1

theorem reads_certificateIsDue (material : CertificateMaterial) :
    Reads now run sm (certificateIsDue material)
      (.ok (dueAt material.notBefore material.notAfter now)) := by
  rw [certificateIsDue_eq]
  exact reads_utcNow.bind (reads_ofExcept (.ok _))

/-- The material of a chain whose leaf is `leaf`. -/
def materialOf (lib : Library) (leaf : Leaf) (fullchain privateKey : Bytes) : CertificateMaterial :=
  { fullchain, privateKey, leafSha256 := leaf.sha256, fullchainSha256 := lib.sha256Hex fullchain
    notBefore := leaf.notBefore, notAfter := leaf.notAfter }

/-- The chain is of the leaf, for the hostname. -/
structure ChainOf (lib : Library) (settings : Settings) (leaf : Leaf) (fullchain : Bytes) : Prop where
  certificates : ∃ first second rest, lib.pemCertificates fullchain = first :: second :: rest ∧
    lib.loadCertificate first = .ok leaf
  san : ∃ names, leaf.dnsNames = some names ∧ settings.hostname ∈ names

variable {leaf : Leaf} {fullchain privateKey : Bytes}

theorem reads_validateCertificate (hchain : ChainOf lib settings leaf fullchain)
    (minimum : Option Int) :
    Reads now run sm (validateCertificate lib fullchain settings.hostname minimum)
      (if minimum.any (fun floor => leaf.notAfter < now + floor) = true then .error floorError
        else .ok (materialOf lib leaf fullchain [])) := by
  obtain ⟨first,second,rest,hpem,hload⟩ := hchain.certificates
  obtain ⟨names,hnames,hmem⟩ := hchain.san
  unfold validateCertificate
  rw [hpem]
  dsimp only
  rw [hload]
  refine (reads_ofExcept (.ok leaf)).bind ?_
  rw [hnames]
  dsimp only
  rw [if_neg (not_not_intro hmem)]
  refine reads_utcNow.bind ?_
  split
  · exact reads_ofExcept (.error floorError)
  · exact reads_ofExcept (.ok _)

theorem loadLeaf_of_chain (hchain : ChainOf lib settings leaf fullchain) :
    loadLeaf lib fullchain = .ok leaf := by
  obtain ⟨first,second,rest,hpem,hload⟩ := hchain.certificates
  unfold loadLeaf
  rw [hpem]
  exact hload

theorem reads_loadAndValidateMaterial {config : ConfigDir} (hchain : ChainOf lib settings leaf fullchain)
    (hkey : lib.publicKeyOf privateKey = .ok leaf.publicKey)
    (hfullchain : config.fullchain = some fullchain)
    (hprivate : config.privateKey = some privateKey) :
    Reads now run sm (loadAndValidateMaterial lib config settings.hostname)
      (if leaf.notAfter < now + minimumActivationRemaining then .error floorError
        else .ok (materialOf lib leaf fullchain privateKey)) := by
  have hvalid : Reads now run sm _ _ :=
    reads_validateCertificate hchain (some minimumActivationRemaining)
  simp only [Option.any_some,decide_eq_true_eq] at hvalid
  unfold loadAndValidateMaterial
  rw [hfullchain,hprivate]
  refine (reads_ofExcept (.ok fullchain)).bind ((reads_ofExcept (.ok privateKey)).bind ?_)
  unfold validateMaterial
  by_cases hfloor : leaf.notAfter < now + minimumActivationRemaining
  · rw [if_pos hfloor] at hvalid ⊢
    exact hvalid.bind_error
  · rw [if_neg hfloor] at hvalid ⊢
    refine hvalid.bind ?_
    rw [loadLeaf_of_chain hchain,hkey]
    refine (reads_ofExcept (.ok leaf)).bind ((reads_ofExcept (.ok leaf.publicKey)).bind ?_)
    rw [if_neg (not_not_intro rfl)]
    exact reads_ofExcept (.ok _)

theorem reads_validateCandidate {material : CertificateMaterial} {trust : TrustProfile}
    (hchain : ChainOf lib settings leaf material.fullchain) :
    Reads now run sm (validateCandidateAgainstTrustProfile lib material trust) (.ok ()) := by
  obtain ⟨first,second,rest,hpem,_⟩ := hchain.certificates
  intro h
  unfold validateCandidateAgainstTrustProfile
  rw [hpem]
  refine (served_perform (Q := fun h' r sm' => ∃ code, r = .ok code ∧ sm' = sm ∧
    callsCertbot h' = callsCertbot h) ?_).bind ?_ ?_
  · intro r sm' hserves
    obtain ⟨⟨code,rfl,_⟩,rfl⟩ := hserves
    exact ⟨code,rfl,rfl,callsCertbot_snoc rfl⟩
  · intro h₁ code sm' hq
    obtain ⟨_,_,rfl,hcalls⟩ := hq
    split
    · exact ⟨rfl,rfl,hcalls⟩
    · refine (served_perform (Q := fun h' r sm'' => r = .ok 0 ∧ sm'' = sm' ∧
        callsCertbot h' = callsCertbot h) ?_).bind ?_ ?_
      · intro r sm'' hserves
        obtain ⟨⟨code',rfl,hcode⟩,rfl⟩ := hserves
        obtain rfl : code' = 0 := by simpa using hcode
        exact ⟨rfl,rfl,(callsCertbot_snoc rfl).trans hcalls⟩
      · intro h₂ code' sm'' hq
        obtain ⟨hcode,rfl,hcalls'⟩ := hq
        cases hcode
        exact ⟨rfl,rfl,hcalls'⟩
      · intro h₂ e sm'' hq
        cases hq.1
  · intro h₁ e sm' hq
    obtain ⟨_,hr,_⟩ := hq
    cases hr

theorem reads_requireReadiness {trust : TrustProfile} (happroved : ApprovedTrust sm trust) :
    Reads now run sm (requireTrustCutoverReadiness trust) (.ok ()) := by
  obtain ⟨value,document,hvalue,hdata,hready,hid,hsha,hcount⟩ := happroved
  unfold requireTrustCutoverReadiness
  refine (reads_readSecret hvalue true).bind ?_
  dsimp only
  rw [hdata]
  dsimp only
  rw [if_pos ⟨hready,hid,hsha,hcount⟩]
  exact reads_ofExcept (.ok ())

end Reading

section Consulting
variable {α : Type}

theorem Consults.ends {p : Renewal α} (hp : Consults p) :
    Ends (servedMachine now run)
      (fun h' _ sm' => sm' = sm ∧ callsCertbot h' = callsCertbot h) p h sm := by
  induction p generalizing h with
  | ret a => exact ⟨rfl,rfl⟩
  | raise e => exact ⟨rfl,rfl⟩
  | call op k ih =>
    intro c r sm' does
    have hserves := serves_of does
    have hkeeps : sm' = sm ∧ op.isCertbot = false := by
      have hop := hp.1
      cases op with
      | addSecretVersion | destroySecretVersion | certbot => cases hop
      | _ => exact ⟨hserves.2,rfl⟩
    obtain ⟨rfl,hop⟩ := hkeeps
    refine (ih r (hp.2 r)).mono ?_
    intro h' r' sm'' hq
    exact ⟨hq.1,hq.2.trans (callsCertbot_snoc hop)⟩

theorem deployed_answers (marker : List Char) (leafSha256 : String) :
    Ends (servedMachine now run) (fun _ r _ => ∃ done, r = .ok done)
      (deployed settings marker leafSha256) h sm := by
  unfold deployed
  refine (served_perform (Q := fun _ r _ => ∃ status, r = .ok status) ?_).bind ?_ ?_
  · intro r sm' hserves
    exact hserves.1
  · intro h' status sm' _
    split
    · refine (served_perform (Q := fun _ r _ => ∃ fingerprint, r = .ok fingerprint) ?_).bind ?_ ?_
      · intro r sm' hserves
        exact hserves.1
      · intro h' fingerprint sm' _
        exact ⟨_,rfl⟩
      · intro h' e sm' hq
        cases hq.choose_spec
    · exact ⟨_,rfl⟩
  · intro h' e sm' hq
    cases hq.choose_spec

theorem pollDeployment_answers (marker : List Char) (leafSha256 : String) (polls : Nat) :
    Ends (servedMachine now run) (fun _ r _ => r = .ok () ∨ r = .error timedOut)
      (pollDeployment settings marker leafSha256 polls) h sm := by
  induction polls generalizing h sm with
  | zero => exact Or.inr rfl
  | succ polls ih =>
    refine (deployed_answers marker leafSha256).bind ?_ ?_
    · intro h' done sm' _
      split
      · exact Or.inl rfl
      · exact ih
    · intro h' e sm' hq
      cases hq.choose_spec

theorem deployRelease_answers (version : Nat) (leafSha256 : String) :
    Ends (servedMachine now run) (fun _ r _ => r = .ok () ∨ r = .error timedOut)
      (deployRelease settings version leafSha256) h sm := by
  unfold deployRelease
  refine (deployed_answers _ leafSha256).bind ?_ ?_
  · intro h' done sm' _
    split
    · exact Or.inl rfl
    · refine (served_perform (Q := fun _ r _ => r = .ok ()) ?_).bind ?_ ?_
      · intro r sm' hserves
        exact hserves.1
      · intro h' _ sm' _
        refine (served_perform (Q := fun _ r _ => ∃ polls, r = .ok polls) ?_).bind ?_ ?_
        · intro r sm' hserves
          exact hserves.1
        · intro h' polls sm' _
          exact pollDeployment_answers _ leafSha256 polls
        · intro h' e sm' hq
          cases hq.choose_spec
      · intro h' e sm' hq
        cases hq
  · intro h' e sm' hq
    cases hq.choose_spec

/-- A deployment is verified, or its deadline passes. -/
theorem deployRelease_ends (version : Nat) (leafSha256 : String) :
    Ends (servedMachine now run) (fun h' r sm' => (r = .ok () ∨ r = .error timedOut) ∧ sm' = sm ∧
      callsCertbot h' = callsCertbot h) (deployRelease settings version leafSha256) h sm :=
  (deployRelease_answers version leafSha256).and (consults_deployRelease version leafSha256).ends

end Consulting

section Pruning

/-- The store after versions below `least` of one secret were destroyed. -/
structure PrunedBelow (secret : Secret) (least : Nat) (sm sm' : SecretManager) : Prop where
  kept : ∀ s n, (s = secret → least ≤ n) → sm'.version s n = sm.version s n
  length : ∀ s, (sm'.versions s).length = (sm.versions s).length

theorem PrunedBelow.refl (secret : Secret) (least : Nat) (sm : SecretManager) :
    PrunedBelow secret least sm sm := ⟨fun _ _ _ => rfl,fun _ => rfl⟩

theorem PrunedBelow.destroy {secret : Secret} {least n : Nat}
    (hp : PrunedBelow secret least (sm.destroy secret n) sm') (hn : n < least) :
    PrunedBelow secret least sm sm' := by
  constructor
  · intro s m hm
    rw [hp.kept s m hm]
    apply SecretManager.version_destroy
    intro hs
    have := hm hs
    omega
  · intro s
    rw [hp.length s]
    exact sm.length_destroy secret n s

theorem listed_version {secret : Secret} {version : ListedVersion}
    (hmem : version ∈ sm.list secret) :
    1 ≤ version.number ∧ version.number ≤ (sm.versions secret).length := by
  unfold SecretManager.list at hmem
  rw [List.mem_reverse,List.mem_mapIdx] at hmem
  obtain ⟨i,hi,rfl⟩ := hmem
  dsimp only
  omega

theorem version_of_le {secret : Secret} {n : Nat} (hone : 1 ≤ n)
    (hle : n ≤ (sm.versions secret).length) : ∃ v, sm.version secret n = some v := by
  unfold SecretManager.version
  rw [if_neg (by omega)]
  exact ⟨_,List.getElem?_eq_getElem (by omega)⟩

theorem destroyOlder_ends {secret : Secret} {least : Nat} {versions : List ListedVersion}
    (hlisted : ∀ version ∈ versions,
      1 ≤ version.number ∧ version.number ≤ (sm.versions secret).length) :
    Ends (servedMachine now run) (fun h' r sm' => r = .ok () ∧ PrunedBelow secret least sm sm' ∧
      callsCertbot h' = callsCertbot h) (destroyOlder secret least versions) h sm := by
  induction versions generalizing h sm with
  | nil => exact ⟨rfl,.refl secret least sm,rfl⟩
  | cons version rest ih =>
    obtain ⟨hone,hle⟩ := hlisted version List.mem_cons_self
    have hrest := fun v hv => hlisted v (List.mem_cons_of_mem version hv)
    unfold destroyOlder
    split
    · exact ih hrest
    · rename_i hold
      refine (served_perform (Q := fun h' r sm' => r = .ok () ∧
        sm' = sm.destroy secret version.number ∧ callsCertbot h' = callsCertbot h) ?_).bind ?_ ?_
      · intro r sm' hserves
        obtain ⟨v,hv⟩ := version_of_le hone hle
        obtain ⟨hr,hs⟩ := hserves v hv
        exact ⟨hr,hs,callsCertbot_snoc rfl⟩
      · intro h' _ sm' hq
        obtain ⟨_,rfl,hcalls⟩ := hq
        have hlisted' : ∀ v ∈ rest, 1 ≤ v.number ∧
            v.number ≤ ((sm.destroy secret version.number).versions secret).length := by
          intro v hv
          rw [sm.length_destroy]
          exact hrest v hv
        refine (ih hlisted').mono ?_
        intro h'' r sm'' hq
        obtain ⟨hr,hpruned,hcalls'⟩ := hq
        exact ⟨hr,hpruned.destroy (by omega),hcalls'.trans hcalls⟩
      · intro h' e sm' hq
        cases hq.1

theorem pruneSecret_ends (secret : Secret) {least : Nat} (hleast : 1 ≤ least) :
    Ends (servedMachine now run) (fun h' r sm' => r = .ok () ∧ PrunedBelow secret least sm sm' ∧
      callsCertbot h' = callsCertbot h) (pruneSecret secret (.number least)) h sm := by
  unfold pruneSecret
  have hnumber : secretVersionNumber (.number least) = .ok least := by
    unfold secretVersionNumber
    dsimp only
    rw [if_neg (by omega)]
  rw [hnumber]
  refine (reads_ofExcept (.ok least)).ends_bind ?_
  intro h₀ hcalls₀
  refine (served_perform (Q := fun h' r sm' => r = .ok (sm.list secret) ∧ sm' = sm ∧
    callsCertbot h' = callsCertbot h) ?_).bind ?_ ?_
  · intro r sm' hserves
    obtain ⟨rfl,rfl⟩ := hserves
    exact ⟨rfl,rfl,(callsCertbot_snoc rfl).trans hcalls₀⟩
  · intro h₁ versions sm₁ hq
    obtain ⟨hlist,rfl,hcalls₁⟩ := hq
    cases hlist
    refine (destroyOlder_ends (fun version hv => listed_version hv)).mono ?_
    intro h₂ r sm₂ hq
    exact ⟨hq.1,hq.2.1,hq.2.2.trans hcalls₁⟩
  · intro h₁ e sm₁ hq
    cases hq.1

/-- The store after everything older than a release's versions was destroyed. -/
structure PrunedFor (cert key state release : Nat) (sm sm' : SecretManager) : Prop where
  kept : ∀ s n, (s = .cert → cert ≤ n) → (s = .key → key ≤ n) → (s = .state → state ≤ n) →
    (s = .release → release ≤ n) → sm'.version s n = sm.version s n
  length : ∀ s, (sm'.versions s).length = (sm.versions s).length

theorem pruneOld_ends {cert key state release : Nat} (hcert : 1 ≤ cert) (hkey : 1 ≤ key)
    (hstate : 1 ≤ state) (hrelease : 1 ≤ release) :
    Ends (servedMachine now run) (fun h' r sm' => r = .ok () ∧
      PrunedFor cert key state release sm sm' ∧ callsCertbot h' = callsCertbot h)
      (pruneOldReleaseVersions
        { certVersion := .number cert, keyVersion := .number key, stateVersion := .number state
          releaseVersion := .number release }) h sm := by
  unfold pruneOldReleaseVersions
  refine (pruneSecret_ends .cert hcert).bind ?_ (fun _ _ _ hq => by cases hq.1)
  intro h₁ _ sm₁ hq
  obtain ⟨_,hp₁,hc₁⟩ := hq
  refine (pruneSecret_ends .key hkey).bind ?_ (fun _ _ _ hq => by cases hq.1)
  intro h₂ _ sm₂ hq
  obtain ⟨_,hp₂,hc₂⟩ := hq
  refine (pruneSecret_ends .state hstate).bind ?_ (fun _ _ _ hq => by cases hq.1)
  intro h₃ _ sm₃ hq
  obtain ⟨_,hp₃,hc₃⟩ := hq
  refine (pruneSecret_ends .release hrelease).mono ?_
  intro h₄ r sm₄ hq
  obtain ⟨hr,hp₄,hc₄⟩ := hq
  refine ⟨hr,⟨?_,?_⟩,hc₄.trans (hc₃.trans (hc₂.trans hc₁))⟩
  · intro s n hc hk hs hrel
    rw [hp₄.kept s n hrel,hp₃.kept s n hs,hp₂.kept s n hk,hp₁.kept s n hc]
  · intro s
    rw [hp₄.length,hp₃.length,hp₂.length,hp₁.length]

end Pruning

section Publishing

/-- A release and what it names, in the store. -/
structure Published (settings : Settings) (material : CertificateMaterial) (archive : Bytes)
    (trust : TrustProfile) (cert key state release : Nat) (sm : SecretManager) : Prop where
  certStored : sm.version .cert cert = some { payload := .bytes material.fullchain }
  keyStored : sm.version .key key = some { payload := .bytes material.privateKey }
  stateStored : sm.version .state state = some { payload := .bytes archive }
  releaseStored : sm.version .release release =
    some { payload := .releaseManifest (releaseDocument settings material cert key state trust) }
  latest : release = (sm.versions .release).length

variable {material : CertificateMaterial} {archive : Bytes} {trust : TrustProfile}
  {cert key state release : Nat}

theorem one_le_of_version {secret : Secret} {n : Nat} {v : Version}
    (hv : sm.version secret n = some v) : 1 ≤ n := by
  unfold SecretManager.version at hv
  split at hv
  · cases hv
  · omega

theorem Published.pruned (hp : Published settings material archive trust cert key state release sm)
    (hpruned : PrunedFor cert key state release sm sm') :
    Published settings material archive trust cert key state release sm' := by
  constructor
  · rw [hpruned.kept .cert cert (fun _ => Nat.le_refl _) (by simp) (by simp) (by simp)]
    exact hp.certStored
  · rw [hpruned.kept .key key (by simp) (fun _ => Nat.le_refl _) (by simp) (by simp)]
    exact hp.keyStored
  · rw [hpruned.kept .state state (by simp) (by simp) (fun _ => Nat.le_refl _) (by simp)]
    exact hp.stateStored
  · rw [hpruned.kept .release release (by simp) (by simp) (by simp) (fun _ => Nat.le_refl _)]
    exact hp.releaseStored
  · rw [hpruned.length]
    exact hp.latest

theorem accessNamed_latest_congr {secret : Secret}
    (hversion : ∀ n, sm'.version secret n = sm.version secret n)
    (hlength : (sm'.versions secret).length = (sm.versions secret).length) :
    sm'.accessNamed secret .latest = sm.accessNamed secret .latest := by
  unfold SecretManager.accessNamed SecretManager.access
  dsimp only
  rw [hversion,hlength]

theorem PrunedFor.trustProfile (hpruned : PrunedFor cert key state release sm sm') :
    sm'.accessNamed .trustProfile .latest = sm.accessNamed .trustProfile .latest := by
  apply accessNamed_latest_congr
  · intro n
    apply hpruned.kept <;> simp
  · exact hpruned.length .trustProfile

variable (settings sm material archive trust) in
theorem published_adds :
    ∃ sm₁ sm₂ sm₃ sm₄, sm₁ = sm.add .cert (.bytes material.fullchain) ∧
      sm₂ = sm₁.add .key (.bytes material.privateKey) ∧ sm₃ = sm₂.add .state (.bytes archive) ∧
      sm₄ = sm₃.add .release (.releaseManifest (releaseDocument settings material
        ((sm.versions .cert).length + 1) ((sm₁.versions .key).length + 1)
        ((sm₂.versions .state).length + 1) trust)) ∧
      Published settings material archive trust ((sm.versions .cert).length + 1)
        ((sm₁.versions .key).length + 1) ((sm₂.versions .state).length + 1)
        ((sm₃.versions .release).length + 1) sm₄ ∧
      sm₄.accessNamed .trustProfile .latest = sm.accessNamed .trustProfile .latest := by
  refine ⟨_,_,_,_,rfl,rfl,rfl,rfl,⟨?_,?_,?_,?_,?_⟩,?_⟩
  · apply SecretManager.version_add_old
    apply SecretManager.version_add_old
    apply SecretManager.version_add_old
    exact sm.version_add_new .cert _
  · apply SecretManager.version_add_old
    apply SecretManager.version_add_old
    exact SecretManager.version_add_new _ .key _
  · apply SecretManager.version_add_old
    exact SecretManager.version_add_new _ .state _
  · exact SecretManager.version_add_new _ .release _
  · simp [SecretManager.add]
  · rfl

/-- A publication stores a release and all it names; its deployment is verified or not. -/
theorem publishRelease_ends {config : ConfigDir} (harchive : archiveState lib config = .ok archive) :
    Ends (servedMachine now run) (fun _ r sm' => ∃ cert key state release,
      (r = .ok { certVersion := .number cert, keyVersion := .number key
                 stateVersion := .number state, releaseVersion := .number release } ∨
        r = .error timedOut) ∧
      Published settings material archive trust cert key state release sm' ∧
      sm'.accessNamed .trustProfile .latest = sm.accessNamed .trustProfile .latest)
      (publishRelease lib settings material config trust) h sm := by
  obtain ⟨sm₁,sm₂,sm₃,sm₄,h₁,h₂,h₃,h₄,hpublished,htrust⟩ :=
    published_adds settings sm material archive trust
  unfold publishRelease
  refine (served_perform (Q := fun _ r sm' => r = .ok ((sm.versions .cert).length + 1) ∧ sm' = sm₁)
    ?_).bind ?_ (fun _ _ _ hq => by cases hq.1)
  · intro r sm' hserves
    exact ⟨hserves.1,hserves.2.trans h₁.symm⟩
  intro g₁ _ s₁ hq
  obtain ⟨hcert,rfl⟩ := hq
  cases hcert
  refine (served_perform (Q := fun _ r sm' => r = .ok ((s₁.versions .key).length + 1) ∧ sm' = sm₂)
    ?_).bind ?_ (fun _ _ _ hq => by cases hq.1)
  · intro r sm' hserves
    exact ⟨hserves.1,hserves.2.trans h₂.symm⟩
  intro g₂ _ s₂ hq
  obtain ⟨hkey,rfl⟩ := hq
  cases hkey
  rw [harchive]
  refine (reads_ofExcept (.ok archive)).ends_bind ?_
  intro g _
  refine (served_perform (Q := fun _ r sm' => r = .ok ((s₂.versions .state).length + 1) ∧ sm' = sm₃)
    ?_).bind ?_ (fun _ _ _ hq => by cases hq.1)
  · intro r sm' hserves
    exact ⟨hserves.1,hserves.2.trans h₃.symm⟩
  intro g₃ _ s₃ hq
  obtain ⟨hstate,rfl⟩ := hq
  cases hstate
  refine (served_perform (Q := fun _ r sm' => r = .ok ((s₃.versions .release).length + 1) ∧ sm' = sm₄)
    ?_).bind ?_ (fun _ _ _ hq => by cases hq.1)
  · intro r sm' hserves
    exact ⟨hserves.1,hserves.2.trans h₄.symm⟩
  intro g₄ _ s₄ hq
  obtain ⟨hrelease,rfl⟩ := hq
  cases hrelease
  refine (deployRelease_ends _ material.leafSha256).bind ?_ ?_
  · intro g₅ _ s₅ hq
    obtain ⟨_,rfl,_⟩ := hq
    exact ⟨_,_,_,_,Or.inl rfl,hpublished,htrust⟩
  · intro g₅ e s₅ hq
    obtain ⟨hr,rfl,_⟩ := hq
    rcases hr with hr | hr
    · cases hr
    · cases hr
      exact ⟨_,_,_,_,Or.inr rfl,hpublished,htrust⟩

/-- A published release is the latest, pruned or not, and the trust profile is as it was. -/
theorem publishAndPrune_ends {config : ConfigDir} (harchive : archiveState lib config = .ok archive) :
    Ends (servedMachine now run) (fun _ r sm' => (r = .ok .renewed ∨ r = .error timedOut) ∧
      (∃ cert key state release,
        Published settings material archive trust cert key state release sm') ∧
      sm'.accessNamed .trustProfile .latest = sm.accessNamed .trustProfile .latest)
      (do
        let published ← publishRelease lib settings material config trust
        pruneOldReleaseVersions published
        return Outcome.renewed) h sm := by
  refine (publishRelease_ends harchive).bind ?_ ?_
  · intro h₁ retained sm₁ hq
    obtain ⟨cert,key,state,release,hr,hpublished,htrust⟩ := hq
    rcases hr with hr | hr
    · cases hr
      refine (pruneOld_ends (one_le_of_version hpublished.certStored) (one_le_of_version hpublished.keyStored)
        (one_le_of_version hpublished.stateStored) (one_le_of_version hpublished.releaseStored)).bind ?_ ?_
      · intro h₂ _ sm₂ hq
        obtain ⟨_,hpruned,_⟩ := hq
        exact ⟨Or.inl rfl,⟨cert,key,state,release,hpublished.pruned hpruned⟩,
          hpruned.trustProfile.trans htrust⟩
      · intro h₂ e sm₂ hq
        cases hq.1
    · cases hr
  · intro h₁ e sm₁ hq
    obtain ⟨cert,key,state,release,hr,hpublished,htrust⟩ := hq
    rcases hr with hr | hr
    · cases hr
    · cases hr
      exact ⟨Or.inr rfl,⟨cert,key,state,release,hpublished⟩,htrust⟩

end Publishing

section WithoutCertbot
variable {α : Type}

abbrev NoCertbot (p : Renewal α) : Prop := Only (fun call => call.isCertbot = false) p

theorem Consults.noCertbot {p : Renewal α} (hp : Consults p) : NoCertbot p := by
  refine hp.imp ?_
  intro call hc
  cases call with
  | certbot => cases hc
  | _ => rfl

theorem NoCertbot.ends {p : Renewal α} (hp : NoCertbot p) :
    Ends (servedMachine now run) (fun h' _ _ => callsCertbot h' = callsCertbot h) p h sm := by
  induction p generalizing h sm with
  | ret a => exact rfl
  | raise e => exact rfl
  | call op k ih =>
    intro c r sm' _
    refine (ih r (hp.2 r)).mono ?_
    intro h' r' sm'' hq
    exact hq.trans (callsCertbot_snoc hp.1)

theorem noCertbot_perform {call : Call} (hc : call.isCertbot = false) : NoCertbot (perform call) :=
  (only_perform call).mpr hc

theorem noCertbot_destroyOlder (secret : Secret) (least : Nat) (versions : List ListedVersion) :
    NoCertbot (destroyOlder secret least versions) := by
  induction versions with
  | nil => trivial
  | cons version rest ih =>
    unfold destroyOlder
    split
    · exact ih
    · exact (noCertbot_perform rfl).bind (fun _ => ih)

theorem noCertbot_pruneSecret (secret : Secret) (retained : VersionName) :
    NoCertbot (pruneSecret secret retained) :=
  (only_ofExcept _).bind (fun least => (noCertbot_perform rfl).bind
    (fun versions => noCertbot_destroyOlder secret least versions))

theorem noCertbot_pruneOld (retained : Retained) : NoCertbot (pruneOldReleaseVersions retained) :=
  (noCertbot_pruneSecret _ _).bind (fun _ => (noCertbot_pruneSecret _ _).bind
    (fun _ => (noCertbot_pruneSecret _ _).bind (fun _ => noCertbot_pruneSecret _ _)))

theorem noCertbot_publishRelease (material : CertificateMaterial) (config : ConfigDir)
    (trust : TrustProfile) : NoCertbot (publishRelease lib settings material config trust) := by
  refine (noCertbot_perform rfl).bind (fun _ => (noCertbot_perform rfl).bind (fun _ => ?_))
  refine (only_ofExcept _).bind (fun _ => (noCertbot_perform rfl).bind (fun _ => ?_))
  refine (noCertbot_perform rfl).bind ?_
  intro releaseVersion
  exact (consults_deployRelease releaseVersion _).noCertbot.bind (fun _ => trivial)

theorem noCertbot_deployAndPrune (release : ActiveRelease) (leafSha256 : String) :
    NoCertbot (do
      deployRelease settings release.releaseVersion leafSha256
      pruneOldReleaseVersions release.retained
      return Outcome.healthy) :=
  (consults_deployRelease _ leafSha256).noCertbot.bind
    (fun _ => (noCertbot_pruneOld _).bind (fun _ => trivial))

theorem noCertbot_publishAndPrune (material : CertificateMaterial) (config : ConfigDir)
    (trust : TrustProfile) : NoCertbot (do
      let published ← publishRelease lib settings material config trust
      pruneOldReleaseVersions published
      return Outcome.renewed) :=
  (noCertbot_publishRelease material config trust).bind
    (fun _ => (noCertbot_pruneOld _).bind (fun _ => trivial))

end WithoutCertbot

section Issuing
variable {leaf : Leaf} {trust : TrustProfile} {active : Option ActiveRelease}

/-- The leaf is released, with the pair and the state it came with. -/
def Releases (lib : Library) (settings : Settings) (leaf : Leaf) (trust : TrustProfile)
    (sm : SecretManager) : Prop :=
  ∃ fullchain privateKey archive cert key state release, ChainOf lib settings leaf fullchain ∧
    lib.publicKeyOf privateKey = .ok leaf.publicKey ∧
    Published settings (materialOf lib leaf fullchain privateKey) archive trust cert key state
      release sm

/-- What a run that called Certbot comes to. -/
structure IssuedEnd (lib : Library) (settings : Settings) (now : Int) (leaf : Leaf)
    (sm : SecretManager) (r : Except Exc Outcome) (sm' : SecretManager) : Prop where
  accepted : now + minimumActivationRemaining ≤ leaf.notAfter →
    (r = .ok .renewed ∨ r = .error timedOut) ∧
      ∃ trust, StoredTrust lib settings sm' trust ∧ Releases lib settings leaf trust sm'
  refused : leaf.notAfter < now + minimumActivationRemaining → r = .error floorError ∧ sm' = sm

theorem Issued.chainOf (hissued : Issued lib settings run leaf) :
    ∃ fullchain privateKey archive, run.config.fullchain = some fullchain ∧
      run.config.privateKey = some privateKey ∧ archiveState lib run.config = .ok archive ∧
      ChainOf lib settings leaf fullchain ∧ lib.publicKeyOf privateKey = .ok leaf.publicKey := by
  obtain ⟨fullchain,first,second,rest,hfullchain,hpem,hload⟩ := hissued.chain
  obtain ⟨privateKey,hprivate,hkey⟩ := hissued.key
  obtain ⟨archive,harchive⟩ := hissued.archived
  exact ⟨fullchain,privateKey,archive,hfullchain,hprivate,harchive,
    ⟨⟨first,second,rest,hpem,hload⟩,hissued.san⟩,hkey⟩

theorem runCertbot_ends (hcode : run.returncode = 0) (config : ConfigDir) :
    Ends (servedMachine now run) (fun _ r sm' => r = .ok run.config ∧ sm' = sm)
      (runCertbot config) h sm := by
  unfold runCertbot
  refine (served_perform (Q := fun _ r sm' => r = .ok run ∧ sm' = sm) ?_).bind ?_
    (fun _ _ _ hq => by cases hq.1)
  · intro r sm' hserves
    exact hserves
  intro h' result sm' hq
  obtain ⟨hresult,rfl⟩ := hq
  cases hresult
  rw [if_neg (not_not_intro hcode)]
  exact ⟨rfl,rfl⟩

/-- The candidate is Certbot's, or Certbot was not called. -/
theorem candidateMaterial_ends {fullchain privateKey : Bytes} (hcode : run.returncode = 0)
    (hchain : ChainOf lib settings leaf fullchain)
    (hkey : lib.publicKeyOf privateKey = .ok leaf.publicKey)
    (hfullchain : run.config.fullchain = some fullchain)
    (hprivate : run.config.privateKey = some privateKey) :
    Ends (servedMachine now run) (fun h' r sm' => sm' = sm ∧
      (callsCertbot h' = callsCertbot h ∨
        r = if leaf.notAfter < now + minimumActivationRemaining then .error floorError
          else .ok (materialOf lib leaf fullchain privateKey,run.config)))
      (candidateMaterial lib settings) h sm := by
  unfold candidateMaterial
  refine consults_restoredConfig.ends.bind ?_ (fun _ _ _ hq => ⟨hq.1,Or.inl hq.2⟩)
  intro h₁ config sm₁ hq
  obtain ⟨rfl,hcalls₁⟩ := hq
  refine (consults_storedMaterial config).ends.bind ?_
    (fun _ _ _ hq => ⟨hq.1,Or.inl (hq.2.trans hcalls₁)⟩)
  intro h₂ stored sm₂ hq
  obtain ⟨rfl,hcalls₂⟩ := hq
  cases stored with
  | some material => exact ⟨rfl,Or.inl (hcalls₂.trans hcalls₁)⟩
  | none =>
    refine (runCertbot_ends hcode config).bind ?_ (fun _ _ _ hq => by cases hq.1)
    intro h₃ config' sm₃ hq
    obtain ⟨hconfig,rfl⟩ := hq
    cases hconfig
    have hvalid : Reads now run sm₃ _ _ :=
      reads_loadAndValidateMaterial hchain hkey hfullchain hprivate
    by_cases hfloor : leaf.notAfter < now + minimumActivationRemaining
    · rw [if_pos hfloor] at hvalid ⊢
      refine (hvalid.bind_error h₃).mono ?_
      intro h₄ r sm₄ hq
      exact ⟨hq.2.1,Or.inr hq.1⟩
    · rw [if_neg hfloor] at hvalid ⊢
      exact hvalid.ends_bind (fun h₄ _ => ⟨rfl,Or.inr rfl⟩)

/-- From a candidate of Certbot on, nothing refuses it. -/
theorem issued_published {fullchain privateKey archive : Bytes}
    (hchain : ChainOf lib settings leaf fullchain)
    (hkey : lib.publicKeyOf privateKey = .ok leaf.publicKey)
    (harchive : archiveState lib run.config = .ok archive)
    (hstored : StoredTrust lib settings sm trust)
    (hfloor : now + minimumActivationRemaining ≤ leaf.notAfter) :
    Ends (servedMachine now run) (fun _ r sm' => IssuedEnd lib settings now leaf sm r sm')
      (do
        let published ← publishRelease lib settings (materialOf lib leaf fullchain privateKey)
          run.config trust
        pruneOldReleaseVersions published
        return Outcome.renewed) h sm := by
  refine (publishAndPrune_ends harchive).mono ?_
  intro h' r sm' hq
  obtain ⟨hr,⟨cert,key,state,release,hpublished⟩,htrust⟩ := hq
  obtain ⟨value,hvalue,hload⟩ := hstored
  constructor
  · intro _
    exact ⟨hr,trust,⟨value,htrust.trans hvalue,hload⟩,fullchain,privateKey,archive,cert,key,state,
      release,hchain,hkey,hpublished⟩
  · intro hlt
    omega

theorem issueRelease_ends (hissued : Issued lib settings run leaf)
    (hstored : StoredTrust lib settings sm trust)
    (hfresh : ∀ release, active = some release → release.leafSha256 ≠ leaf.sha256)
    (hsettled : (∃ release, active = some release ∧ trustMatches release trust = true) ∨
      ApprovedTrust sm trust) (hcalls : callsCertbot h = false) :
    Ends (servedMachine now run)
      (fun h' r sm' => callsCertbot h' = true → IssuedEnd lib settings now leaf sm r sm')
      (issueRelease lib settings active trust) h sm := by
  obtain ⟨fullchain,privateKey,archive,hfullchain,hprivate,harchive,hchain,hkey⟩ := hissued.chainOf
  unfold issueRelease
  refine (candidateMaterial_ends hissued.succeeded hchain hkey hfullchain
    hprivate).bind ?_ ?_
  · intro h₁ candidate sm₁ hq
    obtain ⟨rfl,hcase⟩ := hq
    obtain ⟨material,config⟩ := candidate
    rcases hcase with hquiet | hcandidate
    · -- without Certbot until here, nothing below calls it
      refine (NoCertbot.ends ?rest).mono ?unused
      case rest =>
        refine (consults_validateCandidate material trust).noCertbot.bind ?_
        intro _
        cases active with
        | none =>
          exact (consults_requireReadiness trust).noCertbot.bind
            (fun _ => noCertbot_publishAndPrune material config trust)
        | some release =>
          dsimp only
          split
          · refine (consults_requireReadiness trust).noCertbot.bind ?_
            intro _
            split
            · exact noCertbot_deployAndPrune release _
            · exact noCertbot_publishAndPrune material config trust
          · split
            · exact noCertbot_deployAndPrune release _
            · exact noCertbot_publishAndPrune material config trust
      case unused =>
        intro h₂ r sm₂ hq hcertbot
        rw [hq,hquiet,hcalls] at hcertbot
        cases hcertbot
    · by_cases hlt : leaf.notAfter < now + minimumActivationRemaining
      · rw [if_pos hlt] at hcandidate
        cases hcandidate
      · rw [if_neg hlt] at hcandidate
        cases hcandidate
        have hfloor := Int.not_lt.mp hlt
        refine (reads_validateCandidate hchain).ends_bind ?_
        intro h₂ _
        cases active with
        | none =>
          rcases hsettled with hrecorded | happroved
          · obtain ⟨_,hnone,_⟩ := hrecorded
            cases hnone
          · refine (reads_requireReadiness happroved).ends_bind ?_
            intro h₃ _
            exact (issued_published hchain hkey harchive hstored hfloor).mono (fun _ _ _ hq _ => hq)
        | some release =>
          have hnew : ¬ (release.leafSha256 = (materialOf lib leaf fullchain privateKey).leafSha256 ∧
              trustMatches release trust = true) := fun hsame => hfresh release rfl hsame.1
          dsimp only
          rw [if_neg hnew]
          split
          · rename_i hmismatch
            rcases hsettled with hrecorded | happroved
            · obtain ⟨_,hsome,hmatches⟩ := hrecorded
              cases hsome
              rw [hmatches] at hmismatch
              cases hmismatch
            · refine (reads_requireReadiness happroved).ends_bind ?_
              intro h₃ _
              exact (issued_published hchain hkey harchive hstored hfloor).mono
                (fun _ _ _ hq _ => hq)
          · exact (issued_published hchain hkey harchive hstored hfloor).mono (fun _ _ _ hq _ => hq)
  · intro h₁ e sm₁ hq hcertbot
    obtain ⟨rfl,hcase⟩ := hq
    rcases hcase with hquiet | hcandidate
    · rw [hquiet,hcalls] at hcertbot
      cases hcertbot
    · by_cases hlt : leaf.notAfter < now + minimumActivationRemaining
      · rw [if_pos hlt] at hcandidate
        cases hcandidate
        exact ⟨fun hle => by omega,fun _ => ⟨rfl,rfl⟩⟩
      · rw [if_neg hlt] at hcandidate
        cases hcandidate

theorem readSecret_ends (secret : Secret) (version : VersionName) (missingOk : Bool) :
    Ends (servedMachine now run) (fun h' r sm' => sm' = sm ∧ callsCertbot h' = callsCertbot h ∧
      ∀ found, r = .ok found → ∀ value, sm.accessNamed secret version = .ok value ↔ found = some value)
      (readSecret secret version missingOk) h sm := by
  have hconsults : Ends (servedMachine now run)
      (fun h' _ sm' => sm' = sm ∧ callsCertbot h' = callsCertbot h)
      (readSecret secret version missingOk) h sm :=
    (consults_readSecret secret version missingOk).ends
  have hvalue : Ends (servedMachine now run) (fun _ r _ => ∀ found, r = .ok found →
      ∀ value, sm.accessNamed secret version = .ok value ↔ found = some value)
      (readSecret secret version missingOk) h sm := by
    unfold readSecret
    have hread := (reads_access secret version : Reads now run sm _ _) h
    refine Ends.tryCatch (hread.bind (R := fun _ r _ =>
      (∀ found, r = .ok found → found.isSome = true ∧
        ∀ value, sm.accessNamed secret version = .ok value ↔ found = some value) ∧
      ∀ e, r = .error e → sm.accessNamed secret version = .error e) ?_ ?_) ?_ ?_
    · intro h' a sm' hq
      refine ⟨?_,fun e he => by cases he⟩
      intro found hfound
      cases hfound
      rw [← hq.1]
      simp
    · intro h' e sm' hq
      refine ⟨(fun found hfound => by cases hfound),?_⟩
      intro e' he
      cases he
      exact hq.1.symm
    · intro h' a sm' hq found hfound
      exact (hq.1 found hfound).2
    · intro h' e sm' hq
      have herror := hq.2 e rfl
      cases e with
      | notFound =>
        cases missingOk with
        | true =>
          intro found hfound value
          cases hfound
          rw [herror]
          simp
        | false =>
          intro found hfound
          cases hfound
      | _ =>
        intro found hfound
        cases hfound
  refine (hconsults.and hvalue).mono ?_
  intro h' r sm' hq
  exact ⟨hq.1.1,hq.1.2,hq.2⟩

theorem not_called {P : Prop} (hcalls : callsCertbot h = false) (hcertbot : callsCertbot h = true) :
    P := by
  rw [hcalls] at hcertbot
  cases hcertbot

theorem keepOrIssue_ends (hissued : Issued lib settings run leaf)
    (hstored : StoredTrust lib settings sm trust)
    (hfresh : ∀ release, active = some release → release.leafSha256 ≠ leaf.sha256)
    (hsettled : (∃ release, active = some release ∧ trustMatches release trust = true) ∨
      ApprovedTrust sm trust) (hcalls : callsCertbot h = false) :
    Ends (servedMachine now run)
      (fun h' r sm' => callsCertbot h' = true → IssuedEnd lib settings now leaf sm r sm')
      (keepOrIssue lib settings active trust) h sm := by
  unfold keepOrIssue
  split
  · rename_i release
    split
    · refine (consults_activeReleaseMaterial release).ends.bind ?_ ?_
      · intro h₁ material sm₁ hq
        obtain ⟨rfl,hcalls₁⟩ := hq
        refine (reads_certificateIsDue material).ends_bind ?_
        intro h₂ hcalls₂
        have hquiet : callsCertbot h₂ = false := hcalls₂.trans (hcalls₁.trans hcalls)
        split
        · exact issueRelease_ends hissued hstored hfresh hsettled hquiet
        · have hkept : NoCertbot (do
              validateCandidateAgainstTrustProfile lib material trust
              deployRelease settings release.releaseVersion material.leafSha256
              pruneOldReleaseVersions release.retained
              return Outcome.healthy) :=
            (consults_validateCandidate material trust).noCertbot.bind
              (fun _ => noCertbot_deployAndPrune release _)
          refine hkept.ends.mono ?_
          intro h₃ r sm₃ hq
          exact not_called (hq.trans hquiet)
      · intro h₁ e sm₁ hq
        exact not_called (hq.2.trans hcalls)
    · exact issueRelease_ends hissued hstored hfresh hsettled hcalls
  · exact issueRelease_ends hissued hstored hfresh hsettled hcalls

/-- The active release that the first read found. -/
theorem parsed_of_read {found : Option SecretValue} (release : ActiveRelease)
    (hread : ∀ value, sm.accessNamed .release .latest = .ok value ↔ found = some value)
    (hparse : parseRelease settings found = .ok active) :
    active = some release ↔ ∃ value, sm.accessNamed .release .latest = .ok value ∧
      parseRelease settings (some value) = .ok (some release) := by
  constructor
  · intro hrelease
    subst hrelease
    cases found with
    | none => cases hparse
    | some value => exact ⟨value,(hread value).mpr rfl,hparse⟩
  · intro hrelease
    obtain ⟨value,hvalue,hrelease⟩ := hrelease
    rw [(hread value).mp hvalue,hrelease] at hparse
    cases hparse
    rfl

/-- The end of a run that called Certbot, from any store. -/
theorem renewCertificate_issues (hissued : Issued lib settings run leaf)
    (hfresh : Fresh settings sm leaf) (hsettled : TrustSettled lib settings sm) :
    Ends (servedMachine now run)
      (fun h' r sm' => callsCertbot h' = true → IssuedEnd lib settings now leaf sm r sm')
      (renewCertificate lib settings) [] sm := by
  unfold renewCertificate
  refine (readSecret_ends .release .latest true).bind ?_ (fun _ _ _ hq => not_called hq.2.1)
  intro h₁ activeValue sm₁ hq
  obtain ⟨rfl,hcalls₁,hread⟩ := hq
  cases hparse : parseRelease settings activeValue with
  | error e => exact not_called hcalls₁
  | ok active =>
    have hactive := fun release => parsed_of_read release (hread activeValue rfl) hparse
    refine (reads_ofExcept (.ok active)).ends_bind ?_
    intro h₂ hcalls₂
    have hquiet₂ : callsCertbot h₂ = false := hcalls₂.trans hcalls₁
    refine (readSecret_ends .trustProfile .latest false).bind ?_
      (fun _ _ _ hq => not_called (hq.2.1.trans hquiet₂))
    intro h₃ trustValue sm₃ hq
    obtain ⟨rfl,hcalls₃,htrust⟩ := hq
    have hquiet₃ : callsCertbot h₃ = false := hcalls₃.trans hquiet₂
    cases trustValue with
    | none => exact not_called hquiet₃
    | some trustValue =>
      dsimp only
      cases hload : loadTrustProfile lib settings.trustProfileId trustValue.data.data with
      | error e => exact not_called hquiet₃
      | ok trust =>
        have hstored : StoredTrust lib settings sm₃ trust :=
          ⟨trustValue,(htrust _ rfl trustValue).mpr rfl,hload⟩
        have hnew : ∀ release, active = some release → release.leafSha256 ≠ leaf.sha256 := by
          intro release hrelease
          obtain ⟨value,hvalue,hrelease⟩ := (hactive release).mp hrelease
          exact hfresh value release hvalue hrelease
        have hchoice : (∃ release, active = some release ∧ trustMatches release trust = true) ∨
            ApprovedTrust sm₃ trust := by
          rcases hsettled trust hstored with hrecorded | happroved
          · obtain ⟨value,release,hvalue,hrelease,hmatches⟩ := hrecorded
            exact Or.inl ⟨release,(hactive release).mpr ⟨value,hvalue,hrelease⟩,hmatches⟩
          · exact Or.inr happroved
        refine (reads_ofExcept (.ok trust)).ends_bind ?_
        intro h₄ hcalls₄
        exact keepOrIssue_ends hissued hstored hnew hchoice (hcalls₄.trans hquiet₃)

end Issuing

section Keeping
variable {leaf : Leaf} {trust : TrustProfile}

theorem accessNamed_stored {secret : Secret} {n : Nat} {payload : Payload}
    (hstored : sm.version secret n = some { payload }) :
    sm.accessNamed secret (.number n) = .ok { data := payload, version := n } := by
  unfold SecretManager.accessNamed SecretManager.access
  dsimp only
  rw [hstored]
  rfl

/-- The active release as a run reads it back. -/
def releaseOfMaterial (material : CertificateMaterial) (trust : TrustProfile)
    (cert key state release : Nat) : ActiveRelease :=
  { certVersion := .number cert, keyVersion := .number key, stateVersion := .number state
    releaseVersion := release, leafSha256 := material.leafSha256
    fullchainSha256 := material.fullchainSha256
    trustProfileId := some trust.profileId, trustProfileSha256 := some trust.sha256 }

theorem Published.accessed {material : CertificateMaterial} {archive : Bytes}
    {cert key state release : Nat}
    (hp : Published settings material archive trust cert key state release sm) :
    sm.accessNamed .release .latest = .ok
      { data := .releaseManifest (releaseDocument settings material cert key state trust)
        version := release } := by
  have hlatest : sm.accessNamed .release .latest = sm.accessNamed .release (.number release) := by
    rw [hp.latest]
    rfl
  rw [hlatest]
  exact accessNamed_stored hp.releaseStored

theorem reads_activeReleaseMaterial {fullchain privateKey archive : Bytes}
    {cert key state release : Nat} (hchain : ChainOf lib settings leaf fullchain)
    (hp : Published settings (materialOf lib leaf fullchain privateKey) archive trust cert key state
      release sm) :
    Reads now run sm (activeReleaseMaterial lib settings
        (releaseOfMaterial (materialOf lib leaf fullchain privateKey) trust cert key state release))
      (.ok (materialOf lib leaf fullchain [])) := by
  unfold activeReleaseMaterial
  refine (reads_readSecret (accessNamed_stored hp.certStored) false).bind ?_
  refine (reads_validateCertificate hchain none).bind ?_
  split
  · rename_i hdiffers
    rcases hdiffers with hleaf | hchainHash
    · exact absurd rfl hleaf
    · exact absurd rfl hchainHash
  · exact reads_ofExcept (.ok _)

/-- A run that finds its leaf released, and not due, keeps it without Certbot. -/
theorem renewCertificate_keeps (hreleased : Releases lib settings leaf trust sm)
    (hstored : StoredTrust lib settings sm trust)
    (hdue : dueAt leaf.notBefore leaf.notAfter now = false) :
    Ends (servedMachine now run) (fun h' r _ => (r = .ok .healthy ∨ r = .error timedOut) ∧
      callsCertbot h' = callsCertbot h) (renewCertificate lib settings) h sm := by
  obtain ⟨fullchain,privateKey,archive,cert,key,state,release,hchain,_,hp⟩ := hreleased
  obtain ⟨trustValue,htrustValue,hload⟩ := hstored
  unfold renewCertificate
  refine (reads_readSecret hp.accessed true).ends_bind ?_
  intro h₁ hcalls₁
  have hparse : parseRelease settings (some
      { data := .releaseManifest (releaseDocument settings (materialOf lib leaf fullchain privateKey)
          cert key state trust), version := release }) =
      .ok (some (releaseOfMaterial (materialOf lib leaf fullchain privateKey) trust cert key state
        release)) := by
    simp [parseRelease,releaseDocument,releaseOfMaterial]
  rw [hparse]
  refine (reads_ofExcept (.ok _)).ends_bind ?_
  intro h₂ hcalls₂
  refine (reads_readSecret htrustValue false).ends_bind ?_
  intro h₃ hcalls₃
  dsimp only
  rw [hload]
  refine (reads_ofExcept (.ok trust)).ends_bind ?_
  intro h₄ hcalls₄
  have hmatches : trustMatches (releaseOfMaterial (materialOf lib leaf fullchain privateKey) trust
      cert key state release) trust = true := by
    simp [trustMatches,releaseOfMaterial]
  unfold keepOrIssue
  dsimp only
  rw [if_pos hmatches]
  refine (reads_activeReleaseMaterial hchain hp).ends_bind ?_
  intro h₅ hcalls₅
  have hnotDue : Reads now run sm _ _ :=
    reads_certificateIsDue (materialOf lib leaf fullchain [])
  rw [show dueAt (materialOf lib leaf fullchain []).notBefore
    (materialOf lib leaf fullchain []).notAfter now = false from hdue] at hnotDue
  refine hnotDue.ends_bind ?_
  intro h₆ hcalls₆
  rw [if_neg Bool.false_ne_true]
  refine (reads_validateCandidate hchain).ends_bind ?_
  intro h₇ hcalls₇
  have hcalls : callsCertbot h₇ = callsCertbot h := hcalls₇.trans (hcalls₆.trans (hcalls₅.trans
    (hcalls₄.trans (hcalls₃.trans (hcalls₂.trans hcalls₁)))))
  refine (deployRelease_ends _ _).bind ?_ ?_
  · intro h₈ _ sm₈ hq
    obtain ⟨_,rfl,hcalls₈⟩ := hq
    refine (pruneOld_ends (one_le_of_version hp.certStored) (one_le_of_version hp.keyStored)
      (one_le_of_version hp.stateStored) (one_le_of_version hp.releaseStored)).bind ?_ ?_
    · intro h₉ _ sm₉ hq
      exact ⟨Or.inl rfl,hq.2.2.trans (hcalls₈.trans hcalls)⟩
    · intro h₉ e sm₉ hq
      cases hq.1
  · intro h₈ e sm₈ hq
    obtain ⟨hr,_,hcalls₈⟩ := hq
    rcases hr with hr | hr
    · cases hr
    · cases hr
      exact ⟨Or.inr rfl,hcalls₈.trans hcalls⟩

end Keeping

section Convergence
variable {leaf : Leaf} {trust : TrustProfile} {es : List RenewalEvent} {q : Renewal Outcome}

theorem exists_outcome (hfinished : q.finished = true) : ∃ r, q = Prog.ofExcept r := by
  cases q with
  | ret a => exact ⟨.ok a,rfl⟩
  | raise e => exact ⟨.error e,rfl⟩
  | call op k => cases hfinished

theorem releasedLeaf_of_releases (hreleased : Releases lib settings leaf trust sm) :
    ReleasedLeaf lib sm leaf := by
  obtain ⟨fullchain,privateKey,archive,cert,key,state,release,hchain,hkey,hp⟩ := hreleased
  refine ⟨releaseDocument settings (materialOf lib leaf fullchain privateKey) cert key state trust,
    ?_,rfl,cert,key,state,fullchain,privateKey,archive,leaf,rfl,rfl,rfl,hp.certStored,hp.keyStored,
    hp.stateStored,loadLeaf_of_chain hchain,hkey,rfl,rfl⟩
  have hlast := hp.releaseStored
  rw [hp.latest] at hlast
  unfold SecretManager.latestRelease
  rw [sm.last_of_version hlast]
  rfl

theorem healthy_next (hreleased : Releases lib settings leaf trust sm)
    (hstored : StoredTrust lib settings sm trust)
    (hdue : dueAt leaf.notBefore leaf.notAfter now = false)
    (hpath : Path (servedMachine now run) (renewCertificate lib settings) sm es q sm')
    (hfinished : q.finished = true) (hdeployed : q ≠ .raise timedOut) :
    q = .ret .healthy ∧ callsCertbot es = false := by
  obtain ⟨r,rfl⟩ := exists_outcome hfinished
  have hend := (renewCertificate_keeps hreleased hstored hdue).returned hpath
  obtain ⟨hr,hcalls⟩ := hend
  rcases hr with rfl | rfl
  · exact ⟨rfl,hcalls⟩
  · exact absurd rfl hdeployed

/-- A certificate that Certbot issues, and that is not due, is released and then kept, if the
activation floor lets it pass; otherwise the run refuses it and stores nothing. -/
theorem renewal_converges (hissued : Issued lib settings run leaf)
    (hdue : dueAt leaf.notBefore leaf.notAfter now = false) (hfresh : Fresh settings sm leaf)
    (hsettled : TrustSettled lib settings sm)
    (hpath : Path (servedMachine now run) (renewCertificate lib settings) sm es q sm')
    (hfinished : q.finished = true) (hcertbot : callsCertbot es = true)
    (hdeployed : q ≠ .raise timedOut) :
    (now + minimumActivationRemaining ≤ leaf.notAfter → Converged lib settings now leaf q sm') ∧
    (leaf.notAfter < now + minimumActivationRemaining → q = .raise floorError ∧ sm' = sm) := by
  obtain ⟨r,rfl⟩ := exists_outcome hfinished
  have hend := (renewCertificate_issues hissued hfresh hsettled).returned hpath hcertbot
  constructor
  · intro hfloor
    obtain ⟨hr,trust,hstored,hreleased⟩ := hend.accepted hfloor
    have hrenewed : r = .ok .renewed := by
      rcases hr with rfl | rfl
      · rfl
      · exact absurd rfl hdeployed
    subst hrenewed
    exact ⟨rfl,releasedLeaf_of_releases hreleased,fun _ _ _ _ hnext => healthy_next hreleased hstored hdue hnext⟩
  · intro hlt
    obtain ⟨rfl,hs⟩ := hend.refused hlt
    exact ⟨rfl,hs⟩

end Convergence

section Examples

/-- A Certbot run that leaves this chain. -/
def certbotRun (fullchain : Bytes) : CertbotRun :=
  { returncode := 0, output := ""
    config := { fullchain := some fullchain, privateKey := some [], lineage := [] } }

def plainLeaf (notAfter : Int) : Leaf :=
  { dnsNames := some ["edge"], notBefore := 0, notAfter, sha256 := "first", publicKey := [] }

/-- A library whose certificates are valid for six days. -/
def shortLivedLibrary : Library :=
  { plainLibrary with loadCertificate := fun _ => .ok (plainLeaf (days 6)) }

theorem fresh_approvedStore (leaf : Leaf) : Fresh plainSettings approvedStore leaf := by
  intro value active hvalue
  cases hvalue

theorem settled_approvedStore : TrustSettled plainLibrary plainSettings approvedStore := by
  intro trust hstored
  obtain ⟨value,hvalue,hload⟩ := hstored
  cases hvalue
  cases hload
  exact Or.inr ⟨_,_,rfl,rfl,rfl,rfl,rfl,rfl⟩

theorem issued_plain : Issued plainLibrary plainSettings (certbotRun [1]) (plainLeaf (days 90)) :=
  { succeeded := rfl
    chain := ⟨[1],[1],[1],[],rfl,rfl,rfl⟩
    san := ⟨["edge"],rfl,List.mem_singleton.mpr rfl⟩
    key := ⟨[],rfl,rfl⟩
    archived := ⟨[],rfl⟩ }

theorem renewal_converges_plain : ∃ es q sm,
    Path (servedMachine 0 (certbotRun [1])) (renewCertificate plainLibrary plainSettings)
      approvedStore es q sm ∧
    Converged plainLibrary plainSettings 0 (plainLeaf (days 90)) q sm := by
  obtain ⟨es,q,sm,hpath,hp⟩ := path_of_choices (servedMachine 0 (certbotRun [1]))
    (renewCertificate plainLibrary plainSettings) approvedStore
    (candidateChoices [1] ++ publicationChoices "ok:tls=1:first" "first" ++
      List.replicate 4 .success)
    (fun x => callsCertbot x.1 && match x.2.1 with
      | .ret .renewed => true
      | _ => false) (by rfl)
  simp only [Bool.and_eq_true] at hp
  obtain ⟨hcertbot,hq⟩ := hp
  have hrenewed : q = .ret .renewed := by
    split at hq
    · rfl
    · cases hq
  subst hrenewed
  refine ⟨es,_,sm,hpath,?_⟩
  refine (renewal_converges issued_plain (by decide) (fresh_approvedStore _) settled_approvedStore
    hpath rfl hcertbot ?_).1 (by decide)
  intro hraised
  cases hraised

/-- A certificate for six days is not due when it is issued, and is refused all the same. -/
theorem shortLived_refused : ∃ es q sm,
    Issued shortLivedLibrary plainSettings (certbotRun [1]) (plainLeaf (days 6)) ∧
    dueAt 0 (days 6) 0 = false ∧ Fresh plainSettings approvedStore (plainLeaf (days 6)) ∧
    TrustSettled shortLivedLibrary plainSettings approvedStore ∧
    Path (servedMachine 0 (certbotRun [1])) (renewCertificate shortLivedLibrary plainSettings)
      approvedStore es q sm ∧
    q.finished = true ∧ callsCertbot es = true ∧ q ≠ .raise timedOut ∧
    ¬ Converged shortLivedLibrary plainSettings 0 (plainLeaf (days 6)) q sm := by
  obtain ⟨es,q,sm,hpath,hp⟩ := path_of_choices (servedMachine 0 (certbotRun [1]))
    (renewCertificate shortLivedLibrary plainSettings) approvedStore
    ((candidateChoices [1]).take 5)
    (fun x => callsCertbot x.1 && match x.2.1 with
      | .raise e => e = floorError
      | _ => false) (by rfl)
  simp only [Bool.and_eq_true] at hp
  obtain ⟨hcertbot,hq⟩ := hp
  have hrefused : q = .raise floorError := by
    split at hq
    · rw [of_decide_eq_true hq]
    · cases hq
  subst hrefused
  refine ⟨es,_,sm,⟨rfl,⟨[1],[1],[1],[],rfl,rfl,rfl⟩,⟨["edge"],rfl,List.mem_singleton.mpr rfl⟩,
    ⟨[],rfl,rfl⟩,⟨[],rfl⟩⟩,by decide,fresh_approvedStore _,?_,hpath,rfl,hcertbot,?_,?_⟩
  · intro trust hstored
    exact settled_approvedStore trust hstored
  · intro hraised
    cases hraised
  · intro hconverged
    cases hconverged.renewed

end Examples

end Woodhouse.Certificates
