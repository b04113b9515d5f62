import Woodhouse.Certificates.Gate

namespace Woodhouse.Certificates
open Effects

/-- The secrets only the renewer writes. -/
def Secret.isManaged : Secret → Bool
  | .cert | .key | .state | .release => true
  | .trustProfile | .trustReadiness => false

/-- A call may take effect without its answer reaching the execution. -/
def lossyMachine : Machine Call Call.Ret Exc SecretManager (Choice × Option String)
  | sm, call, (choice,lost) =>
    (renewalMachine sm call choice).map (fun answer => match lost with
      | none => answer
      | some name => (.error (.other name),answer.2))

/-- Executions one after the other, each with its own settings: what the latest has been
answered, how it goes on, and the store. An execution ends where the next one begins, and
operators replace trust profiles and approvals at any time. -/
inductive History (lib : Library) :
    Settings → List RenewalEvent → Renewal Outcome → SecretManager → Prop
  | first (settings : Settings) {sm : SecretManager}
      (empty : ∀ secret, secret.isManaged = true → sm.versions secret = []) :
      History lib settings [] (renewCertificate lib settings) sm
  | next (settings : Settings) {before h p sm} (earlier : History lib before h p sm) :
      History lib settings [] (renewCertificate lib settings) sm
  | call {settings h op k sm c r sm'} (before : History lib settings h (.call op k) sm)
      (does : lossyMachine sm op c = some (r,sm')) :
      History lib settings (h ++ [⟨op,r⟩]) (k r) sm'
  | operator {settings h p sm sm'} (before : History lib settings h p sm)
      (kept : ∀ secret, secret.isManaged = true → sm'.versions secret = sm.versions secret) :
      History lib settings h p sm'

/-- The versions a release names are stored and intact, and hold the pair it describes. -/
def Backing (lib : Library) (sm : SecretManager) (document : ReleaseDocument) : Prop :=
  ∃ certVersion keyVersion stateVersion fullchain privateKey archive leaf,
    document.certVersion = some (.number certVersion) ∧
    document.keyVersion = some (.number keyVersion) ∧
    document.stateVersion = some (.number stateVersion) ∧
    sm.version .cert certVersion = some { payload := .bytes fullchain } ∧
    sm.version .key keyVersion = some { payload := .bytes privateKey } ∧
    sm.version .state stateVersion = some { payload := .bytes archive } ∧
    loadLeaf lib fullchain = .ok leaf ∧ lib.publicKeyOf privateKey = .ok leaf.publicKey ∧
    document.leafSha256 = some leaf.sha256 ∧
    document.fullchainSha256 = some (lib.sha256Hex fullchain)

/-- The latest release is an intact manifest whose material is stored. -/
def LatestBacked (lib : Library) (sm : SecretManager) : Prop :=
  ∀ v, (sm.versions .release).getLast? = some v →
    ∃ document, v = { payload := .releaseManifest document } ∧ Backing lib sm document

/-- The version is older than what a release keeps whose deployment the execution verified. -/
def Superseded (settings : Settings) (h : List RenewalEvent) (sm : SecretManager) (secret : Secret)
    (n : Nat) : Prop :=
  ∃ version document leafSha256,
    sm.version .release version = some { payload := .releaseManifest document } ∧
    document.leafSha256 = some leafSha256 ∧ DeploymentVerified settings h version leafSha256 ∧
    ∃ m, kept version document secret = some m ∧ n < m

namespace SecretManager
variable (sm : SecretManager)

theorem version_length {secret : Secret} {v : Version}
    (h : (sm.versions secret).getLast? = some v) :
    sm.version secret (sm.versions secret).length = some v := by
  have hne : sm.versions secret ≠ [] := by
    intro hnil
    rw [hnil] at h
    cases h
  have hpos : 0 < (sm.versions secret).length := List.length_pos_iff.mpr hne
  unfold version
  rw [if_neg (by omega),← h,List.getLast?_eq_getElem?]

theorem last_of_version {secret : Secret} {v : Version}
    (h : sm.version secret (sm.versions secret).length = some v) :
    (sm.versions secret).getLast? = some v := by
  unfold version at h
  split at h
  · cases h
  · rw [List.getLast?_eq_getElem?]
    exact h

theorem access_latest {secret : Secret} {value : SecretValue}
    (h : sm.accessNamed secret .latest = .ok value) :
    value.version = (sm.versions secret).length ∧
      sm.version secret value.version = some { payload := value.data } := by
  unfold accessNamed access at h
  dsimp only at h
  split at h
  · cases h
  · rename_i v hv
    split at h
    · cases h
    · rename_i hlive
      cases h
      refine ⟨rfl,?_⟩
      obtain ⟨payload,destroyed⟩ := v
      cases destroyed with
      | true => exact absurd rfl hlive
      | false => exact hv

theorem version_congr {sm' : SecretManager} {secret : Secret}
    (h : sm'.versions secret = sm.versions secret) (n : Nat) :
    sm'.version secret n = sm.version secret n := by
  unfold version
  rw [h]

theorem version_add_old {s secret : Secret} {payload : Payload} {n : Nat} {v : Version}
    (h : sm.version secret n = some v) : (sm.add s payload).version secret n = some v := by
  by_cases hs : secret = s
  · subst hs
    unfold version at h ⊢
    split at h
    · cases h
    · rename_i hn
      obtain ⟨hlt,_⟩ := List.getElem?_eq_some_iff.mp h
      rw [if_neg hn]
      simp only [add,Function.update_self]
      rw [List.getElem?_append_left hlt]
      exact h
  · rw [version_congr sm (sm.add_other (Ne.symm hs) payload)]
    exact h

theorem version_add_new (secret : Secret) (payload : Payload) :
    (sm.add secret payload).version secret ((sm.versions secret).length + 1) =
      some { payload } := by
  unfold version
  rw [if_neg (by omega)]
  simp [add]

theorem version_destroy {s secret : Secret} {m n : Nat} (h : secret = s → n ≠ m) :
    (sm.destroy s m).version secret n = sm.version secret n := by
  unfold version
  by_cases hn : n < 1
  · simp [hn]
  · rw [if_neg hn,if_neg hn]
    by_cases hs : secret = s
    · subst hs
      have hne : n - 1 + 1 ≠ m := by
        have := h rfl
        omega
      simp [destroy,hne]
    · simp [destroy,Function.update_of_ne hs]

theorem length_destroy (s : Secret) (m : Nat) (secret : Secret) :
    ((sm.destroy s m).versions secret).length = (sm.versions secret).length := by
  by_cases hs : secret = s
  · subst hs
    simp [destroy]
  · simp [destroy,Function.update_of_ne hs]

end SecretManager

variable {lib : Library} {settings : Settings} {h : List RenewalEvent} {p : Renewal Outcome}
  {sm sm' : SecretManager}

theorem History.trace (hh : History lib settings h p sm) :
    Trace (renewCertificate lib settings) h p := by
  induction hh with
  | first settings _ => exact .refl _
  | next settings _ _ => exact .refl _
  | call before does ih => exact ih.snoc rfl _
  | operator before kept ih => exact ih

/-- The condition of the renewal's calls holds before every call of a history. -/
theorem History.rules {op : Call} {k : Except Exc op.Ret → Renewal Outcome}
    (hh : History lib settings h (.call op k) sm) : RenewalRules lib settings h op :=
  (renewCertificate_rules.trace hh.trace).1

/-- What the execution knows of the store is so. -/
structure Known (h : List RenewalEvent) (sm : SecretManager) : Prop where
  stored : (∀ e ∈ h, e.op.destroys = false) → ∀ secret payload n, secret.isManaged = true →
    (⟨.addSecretVersion secret payload,.ok n⟩ : RenewalEvent) ∈ h →
    sm.version secret n = some { payload }
  latest : (∀ payload e, (⟨.addSecretVersion .release payload,.error e⟩ : RenewalEvent) ∉ h) →
    ∀ version payload, lastRelease h = some (version,payload) →
      version = (sm.versions .release).length ∧ sm.version .release version = some { payload }

/-- What a call may have done to the store, and what it was answered. -/
inductive Effect (sm : SecretManager) : RenewalEvent → SecretManager → Prop
  | added (secret payload) :
      Effect sm ⟨.addSecretVersion secret payload,.ok ((sm.versions secret).length + 1)⟩
        (sm.add secret payload)
  | addedUnseen (secret payload e) :
      Effect sm ⟨.addSecretVersion secret payload,.error e⟩ (sm.add secret payload)
  | destroyed (secret n r) : Effect sm ⟨.destroySecretVersion secret n,r⟩ (sm.destroy secret n)
  | read (secret name value) (stored : sm.accessNamed secret name = .ok value) :
      Effect sm ⟨.accessSecretVersion secret name,.ok value⟩ sm
  | none (e : RenewalEvent) (noAdd : ∀ secret payload n, e ≠ ⟨.addSecretVersion secret payload,.ok n⟩)
      (noRead : ∀ secret name value, e ≠ ⟨.accessSecretVersion secret name,.ok value⟩) :
      Effect sm e sm

theorem effect_of_call {op : Call} {c : Choice × Option String} {r : Except Exc op.Ret}
    (does : lossyMachine sm op c = some (r,sm')) : Effect sm ⟨op,r⟩ sm' := by
  obtain ⟨choice,lost⟩ := c
  simp only [lossyMachine,Option.map_eq_some_iff] at does
  obtain ⟨⟨r₀,sm₀⟩,hr₀,hr⟩ := does
  cases lost with
  | none =>
    cases hr
    cases storeStep hr₀ with
    | added secret payload => exact .added secret payload
    | destroyed secret n => exact .destroyed secret n _
    | read secret name value stored => exact .read secret name value stored
    | other e noAdd noRead => exact .none _ noAdd noRead
  | some name =>
    cases hr
    have hstep := storeStep hr₀
    cases hstep with
    | added secret payload => exact .addedUnseen secret payload _
    | destroyed secret n => exact .destroyed secret n _
    | read secret name value stored =>
      exact .none _ (fun _ _ _ he => by cases he) (fun _ _ _ he => by cases he)
    | other e noAdd noRead =>
      exact .none _ (fun _ _ _ he => by cases he) (fun _ _ _ he => by cases he)

theorem lastRelease_snoc (h : List RenewalEvent) (e : RenewalEvent) :
    lastRelease (h ++ [e]) = (releaseOf e).or (lastRelease h) := by
  unfold lastRelease
  rw [List.filterMap_append,List.getLast?_append]
  cases he : releaseOf e <;> simp [he]

theorem lastRelease_of_none {e : RenewalEvent} (he : releaseOf e = none) :
    lastRelease (h ++ [e]) = lastRelease h := by
  rw [lastRelease_snoc,he]
  rfl

/-- A destroyed version is none that the current release keeps. -/
theorem Known.keeps (hk : Known h sm) {secret : Secret} {n : Nat}
    (hrules : RenewalRules lib settings h (.destroySecretVersion secret n)) :
    Superseded settings h sm secret n ∧ ∃ document,
      (sm.versions .release).getLast? = some { payload := .releaseManifest document } ∧
      ∃ m, kept (sm.versions .release).length document secret = some m ∧ n < m := by
  obtain ⟨version,document,leafSha256,hc,hleaf,hv,m,hm,hlt⟩ := hrules
  obtain ⟨rfl,hversion⟩ := hk.latest hc.answered _ _ hc.last
  exact ⟨⟨_,document,leafSha256,hversion,hleaf,hv,m,hm,hlt⟩,document,
    sm.last_of_version hversion,m,hm,hlt⟩

theorem Known.step_stored {e : RenewalEvent} (hk : Known h sm) (he : Effect sm e sm')
    (hintact : ∀ e' ∈ h ++ [e], e'.op.destroys = false) {secret : Secret} {payload : Payload}
    {n : Nat} (hs : secret.isManaged = true)
    (hm : (⟨.addSecretVersion secret payload,.ok n⟩ : RenewalEvent) ∈ h ++ [e]) :
    sm'.version secret n = some { payload } := by
  have hold : (⟨.addSecretVersion secret payload,.ok n⟩ : RenewalEvent) ∈ h →
      sm.version secret n = some { payload } :=
    hk.stored (fun e' he' => hintact e' (List.mem_append_left _ he')) secret payload n hs
  have hlast := hintact e (by simp)
  rcases List.mem_append.mp hm with hbefore | hnew
  · cases he with
    | added => exact sm.version_add_old (hold hbefore)
    | addedUnseen => exact sm.version_add_old (hold hbefore)
    | destroyed => cases hlast
    | read => exact hold hbefore
    | none => exact hold hbefore
  · have hnew := List.mem_singleton.mp hnew
    subst hnew
    cases he with
    | added => exact sm.version_add_new secret payload
    | none _ noAdd _ => exact absurd rfl (noAdd secret payload n)

theorem Known.step_latest {e : RenewalEvent} (hk : Known h sm) (he : Effect sm e sm')
    (hrules : RenewalRules lib settings h e.op)
    (hanswered : ∀ payload error,
      (⟨.addSecretVersion .release payload,.error error⟩ : RenewalEvent) ∉ h ++ [e])
    {version : Nat} {payload : Payload} (hlast : lastRelease (h ++ [e]) = some (version,payload)) :
    version = (sm'.versions .release).length ∧ sm'.version .release version = some { payload } := by
  have hold : lastRelease h = some (version,payload) → version = (sm.versions .release).length ∧
      sm.version .release version = some { payload } :=
    hk.latest (fun payload error hm => hanswered payload error (List.mem_append_left _ hm)) _ _
  have hother : ∀ (s : Secret) (payload' : Payload), s ≠ .release →
      lastRelease h = some (version,payload) →
      version = ((sm.add s payload').versions .release).length ∧
      (sm.add s payload').version .release version = some { payload } := by
    intro s payload' hs hl
    obtain ⟨hlen,hversion⟩ := hold hl
    refine ⟨?_,sm.version_add_old hversion⟩
    rw [sm.add_other hs]
    exact hlen
  cases he with
  | added secret payload' =>
    by_cases hs : secret = .release
    · subst hs
      rw [lastRelease_snoc] at hlast
      cases hlast
      refine ⟨?_,sm.version_add_new .release _⟩
      rw [sm.add_release,List.length_append]
      rfl
    · refine hother secret payload' hs ?_
      rwa [lastRelease_of_none (by cases secret <;> first | rfl | exact absurd rfl hs)] at hlast
  | addedUnseen secret payload' error =>
    by_cases hs : secret = .release
    · subst hs
      exact absurd (by simp) (hanswered payload' error)
    · refine hother secret payload' hs ?_
      rwa [lastRelease_of_none (by cases secret <;> rfl)] at hlast
  | destroyed secret n r =>
    rw [lastRelease_of_none rfl] at hlast
    obtain ⟨rfl,hversion⟩ := hold hlast
    obtain ⟨_,document,_,m,hm,hlt⟩ := hk.keeps hrules
    refine ⟨(sm.length_destroy secret n .release).symm,?_⟩
    rw [sm.version_destroy ?_]
    · exact hversion
    · rintro rfl
      cases hm
      omega
  | read secret name value stored =>
    by_cases hs : secret = .release ∧ name = .latest
    · obtain ⟨rfl,rfl⟩ := hs
      rw [lastRelease_snoc] at hlast
      cases hlast
      exact sm.access_latest stored
    · refine hold ?_
      rwa [lastRelease_of_none ?_] at hlast
      cases secret <;> cases name <;> first | rfl | exact absurd ⟨rfl,rfl⟩ hs
  | none _ noAdd noRead =>
    refine hold ?_
    rwa [lastRelease_of_none ?_] at hlast
    unfold releaseOf
    split
    · exact absurd rfl (noRead _ _ _)
    · exact absurd rfl (noAdd _ _ _)
    · rfl

theorem Known.step {e : RenewalEvent} (hk : Known h sm) (he : Effect sm e sm')
    (hrules : RenewalRules lib settings h e.op) : Known (h ++ [e]) sm' :=
  ⟨fun hintact _ _ _ hs hm => hk.step_stored he hintact hs hm,
    fun hanswered _ _ hlast => hk.step_latest he hrules hanswered hlast⟩

theorem Backing.keep {document : ReleaseDocument} (hb : Backing lib sm document)
    (hkeep : ∀ secret m v, document.reference secret = some m → sm.version secret m = some v →
      sm'.version secret m = some v) : Backing lib sm' document := by
  obtain ⟨certVersion,keyVersion,stateVersion,fullchain,privateKey,archive,leaf,hc,hk,hs,hcv,hkv,hsv,
    hrest⟩ := hb
  refine ⟨certVersion,keyVersion,stateVersion,fullchain,privateKey,archive,leaf,hc,hk,hs,?_,?_,?_,
    hrest⟩
  · exact hkeep .cert _ _ (by simp [ReleaseDocument.reference,hc,VersionName.number?]) hcv
  · exact hkeep .key _ _ (by simp [ReleaseDocument.reference,hk,VersionName.number?]) hkv
  · exact hkeep .state _ _ (by simp [ReleaseDocument.reference,hs,VersionName.number?]) hsv

theorem backing_of_publishable {payload : Payload} {material : CertificateMaterial}
    {trust : TrustProfile} {certVersion keyVersion stateVersion : Nat} {archive : Bytes}
    (hk : Known h sm) (hp : Publishable lib settings h payload material trust certVersion keyVersion
      stateVersion archive) :
    Backing lib sm (releaseDocument settings material certVersion keyVersion stateVersion trust) := by
  obtain ⟨leaf,hleaf,hsha,hfull⟩ := hp.described
  obtain ⟨leaf',hleaf',hkey⟩ := hp.matched
  rw [hleaf] at hleaf'
  cases hleaf'
  have hstored := hk.stored hp.undisturbed.intact
  exact ⟨certVersion,keyVersion,stateVersion,material.fullchain,material.privateKey,archive,leaf,
    rfl,rfl,rfl,hstored .cert _ _ rfl hp.cert,hstored .key _ _ rfl hp.key,
    hstored .state _ _ rfl hp.state,hleaf,hkey,congrArg some hsha,congrArg some hfull⟩

/-- Adding a version of any secret keeps the latest release backed. -/
theorem latestBacked_add {secret : Secret} {payload : Payload} (hb : LatestBacked lib sm)
    (hk : Known h sm) (hrules : RenewalRules lib settings h (.addSecretVersion secret payload)) :
    LatestBacked lib (sm.add secret payload) := by
  intro v hv
  by_cases hs : secret = .release
  · subst hs
    obtain ⟨material,trust,certVersion,keyVersion,stateVersion,archive,hp⟩ := hrules
    rw [sm.add_release,List.getLast?_append] at hv
    cases hv
    obtain rfl := hp.document
    refine ⟨_,rfl,?_⟩
    exact (backing_of_publishable hk hp).keep (fun _ _ _ _ hold => sm.version_add_old hold)
  · rw [sm.add_other hs] at hv
    obtain ⟨document,hdocument,hbacking⟩ := hb v hv
    exact ⟨document,hdocument,hbacking.keep (fun _ _ _ _ hold => sm.version_add_old hold)⟩

/-- Destroying what a verified release does not keep leaves the latest release backed. -/
theorem latestBacked_destroy {secret : Secret} {n : Nat} (hb : LatestBacked lib sm)
    (hk : Known h sm) (hrules : RenewalRules lib settings h (.destroySecretVersion secret n)) :
    LatestBacked lib (sm.destroy secret n) := by
  obtain ⟨_,document,hlast,m,hm,hlt⟩ := hk.keeps hrules
  obtain ⟨document',hdocument,hbacking⟩ := hb _ hlast
  have hsame : document = document' := by simpa using hdocument
  subst hsame
  intro v hv
  have hversion := (sm.destroy secret n).version_length hv
  rw [sm.length_destroy,sm.version_destroy ?_,sm.version_length hlast] at hversion
  · cases hversion
    refine ⟨document,rfl,hbacking.keep ?_⟩
    intro s m' v' href hold
    rw [sm.version_destroy ?_]
    · exact hold
    · rintro rfl
      have hmaterial := reference_material href
      have hkept : kept (sm.versions .release).length document s = document.reference s := by
        cases s with
        | cert | key | state => rfl
        | release | trustProfile | trustReadiness => cases hmaterial
      rw [hkept,href] at hm
      cases hm
      omega
  · rintro rfl
    cases hm
    omega

theorem latestBacked_step {e : RenewalEvent} (hb : LatestBacked lib sm) (hk : Known h sm)
    (he : Effect sm e sm') (hrules : RenewalRules lib settings h e.op) : LatestBacked lib sm' := by
  cases he with
  | added secret payload => exact latestBacked_add hb hk hrules
  | addedUnseen secret payload error => exact latestBacked_add hb hk hrules
  | destroyed secret n r => exact latestBacked_destroy hb hk hrules
  | read => exact hb
  | none => exact hb

theorem known_nil : Known [] sm := by
  refine ⟨?_,?_⟩
  · intro _ secret payload n _ hm
    cases hm
  · intro _ version payload hlast
    cases hlast

/-- The invariant of every history. -/
theorem history_invariant (hh : History lib settings h p sm) :
    LatestBacked lib sm ∧ Known h sm := by
  induction hh with
  | first settings empty =>
    refine ⟨?_,known_nil⟩
    intro v hv
    rw [empty .release rfl] at hv
    cases hv
  | next settings earlier ih =>
    exact ⟨ih.1,known_nil⟩
  | call before does ih =>
    have heffect := effect_of_call does
    have hrules := before.rules
    exact ⟨latestBacked_step ih.1 ih.2 heffect hrules,ih.2.step heffect hrules⟩
  | operator before kept ih =>
    obtain ⟨hb,hk⟩ := ih
    refine ⟨?_,?_,?_⟩
    · intro v hv
      rw [kept .release rfl] at hv
      obtain ⟨document,hdocument,hbacking⟩ := hb v hv
      refine ⟨document,hdocument,hbacking.keep ?_⟩
      intro s m v' href hold
      have hmaterial := reference_material href
      have hmanaged : s.isManaged = true := by
        cases s with
        | cert | key | state => rfl
        | release | trustProfile | trustReadiness => cases hmaterial
      rw [SecretManager.version_congr _ (kept s hmanaged)]
      exact hold
    · intro hintact secret payload n hs hm
      rw [SecretManager.version_congr _ (kept secret hs)]
      exact hk.stored hintact secret payload n hs hm
    · intro hanswered version payload hlast
      rw [SecretManager.version_congr _ (kept .release rfl),kept .release rfl]
      exact hk.latest hanswered version payload hlast

/-- The latest release is always backed, and a managed version is destroyed only when the
execution that does it has verified the deployment of a release that names a later one. -/
structure Survives (lib : Library) (settings : Settings) (h : List RenewalEvent)
    (p : Renewal Outcome) (sm : SecretManager) : Prop where
  latest : LatestBacked lib sm
  destroys : ∀ op k c r sm' secret n, p = .call op k → lossyMachine sm op c = some (r,sm') →
    sm'.Destroyed secret n → ¬ sm.Destroyed secret n → Superseded settings h sm secret n

theorem destroyed_effect {e : RenewalEvent} {secret : Secret} {n : Nat} (he : Effect sm e sm')
    (hd : sm'.Destroyed secret n) (hlive : ¬ sm.Destroyed secret n) :
    e.op = .destroySecretVersion secret n := by
  cases he with
  | added => exact absurd (sm.destroyed_add hd) hlive
  | addedUnseen => exact absurd (sm.destroyed_add hd) hlive
  | destroyed s m r =>
    rcases sm.destroyed_destroy hd with hold | ⟨rfl,rfl⟩
    · exact absurd hold hlive
    · rfl
  | read => exact absurd hd hlive
  | none => exact absurd hd hlive

theorem releases_survive (hh : History lib settings h p sm) : Survives lib settings h p sm := by
  obtain ⟨hb,hk⟩ := history_invariant hh
  refine ⟨hb,?_⟩
  intro op k c r sm' secret n hp does hd hlive
  subst hp
  have hrules := hh.rules
  have hop := destroyed_effect (effect_of_call does) hd hlive
  simp only at hop
  subst hop
  exact (hk.keeps hrules).1

section Witness

theorem History.run {ps : Unit → Renewal Outcome} {log : RenewalLog Unit}
    (hh : History lib settings h p sm)
    (run : Run lossyMachine (fun _ : Unit => p) sm log ps sm') :
    History lib settings (h ++ localEvents () log) (ps ()) sm' := by
  induction run with
  | start => simpa using hh
  | step before turn does ih =>
    rw [turn] at ih
    have hcall := ih.call does
    simpa using hcall

/-- Answers that all arrive. -/
def seen (choices : List Choice) : List (Unit × (Choice × Option String)) :=
  choices.map (fun c => ((),(c,none)))

/-- An execution that loses the answer to its added state, and stops. -/
def interruptedSchedule : List (Unit × (Choice × Option String)) :=
  seen (candidateChoices [1] ++ [.success,.success]) ++ [((),(.success,some "timeout"))]

/-- The execution after it issues again, publishes, and prunes what the first one left. -/
def resumedSchedule : List (Unit × (Choice × Option String)) :=
  seen (candidateChoices [2] ++ publicationChoices "ok:tls=1:second" "second" ++
    List.replicate 7 .success)

/-- The store after a schedule of one execution. -/
def storeAfter (schedule : List (Unit × (Choice × Option String))) (sm : SecretManager) :
    SecretManager :=
  match play lossyMachine schedule [] (fun _ => renewCertificate plainLibrary plainSettings) sm with
  | some (_,_,sm') => sm'
  | none => sm

theorem history_after (schedule : List (Unit × (Choice × Option String)))
    (hh : History plainLibrary plainSettings [] (renewCertificate plainLibrary plainSettings) sm)
    (hp : (play lossyMachine schedule []
      (fun _ => renewCertificate plainLibrary plainSettings) sm).isSome = true) :
    ∃ h p, History plainLibrary plainSettings h p (storeAfter schedule sm) := by
  obtain ⟨⟨log,ps,sm'⟩,hplay⟩ := Option.isSome_iff_exists.mp hp
  have hstore : storeAfter schedule sm = sm' := by
    unfold storeAfter
    rw [hplay]
  rw [hstore]
  exact ⟨_,_,hh.run (run_of_play .start hplay)⟩

/-- A release published after an interrupted execution, whose certificate is pruned. -/
theorem releases_survive_interrupted :
    (storeAfter resumedSchedule (storeAfter interruptedSchedule approvedStore)).Destroyed .cert 1 ∧
    ∃ h p, Survives plainLibrary plainSettings h p
      (storeAfter resumedSchedule (storeAfter interruptedSchedule approvedStore)) := by
  have hempty : ∀ secret, secret.isManaged = true → approvedStore.versions secret = [] := by
    intro secret hs
    cases secret with
    | cert | key | state | release => rfl
    | trustProfile | trustReadiness => cases hs
  obtain ⟨_,_,hinterrupted⟩ := history_after interruptedSchedule
    (.first plainSettings hempty) (by rfl)
  obtain ⟨h,p,hresumed⟩ := history_after resumedSchedule
    (.next plainSettings hinterrupted) (by rfl)
  exact ⟨⟨_,rfl,rfl⟩,h,p,releases_survive hresumed⟩

end Witness

end Woodhouse.Certificates
