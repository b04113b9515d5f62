import Woodhouse.Codes.Concatenation
import Woodhouse.Python.DictPatches
import Woodhouse.Python.Equality
import Woodhouse.Telemetry.RoundTrip

namespace Woodhouse.Telemetry
open Python
open Gateway (Exc)

section Documents

/-- The safe document's entry about the CA certificates. -/
def SafeConfigDocument.caEntry (safe : SafeConfigDocument) (trustProfileId : Option Str) :
    Dict Json :=
  [(str "profile_id",(trustProfileId.map Json.str).getD .null),
   (str "sha256",.str (str safe.caSha256)),
   (str "certificate_count",.int safe.certificateCount),
   (str "contains_non_ca",.bool safe.containsNonCa)]

def payloads (fields : Dict FleetTelemetryField) : Dict Json :=
  fields.map (fun entry => (entry.1,entry.2.toPayload))

def SafeConfigDocument.fieldPayloads (safe : SafeConfigDocument) : Dict Json :=
  payloads safe.fields.sorted

/-- The document that `safe_config_document` returns. -/
def SafeConfigDocument.document (safe : SafeConfigDocument) (trustProfileId : Option Str) :
    Dict Json :=
  [(str "hostname",.str safe.hostname),
   (str "port",.int safe.port),
   (str "ca",.obj (safe.caEntry trustProfileId)),
   (str "fields",.obj safe.fieldPayloads),
   (str "alert_types",.arr (safe.alertTypes.map Json.str)),
   (str "delivery_policy",(safe.deliveryPolicy.map Json.str).getD .null)]

/-- The value of a member that is compared; the CA entry is without its profile. -/
def comparedValue (key : Str) : Json → Json
  | .obj entry => if key = str "ca" then .obj (Dict.drop entry [str "profile_id"]) else .obj entry
  | value => value

def memberChange (current desired : Dict Json) (key : Str) : Option (Str × Json) :=
  match current.get key,desired.get key with
  | some currentValue,some desiredValue =>
    if pyEq (comparedValue key currentValue) (comparedValue key desiredValue) then none
    else some (key,.obj [(str "current",currentValue),(str "desired",desiredValue)])
  | _,_ => none

def comparedMembers : List Str :=
  [str "hostname",str "port",str "ca",str "alert_types",str "delivery_policy"]

/-- What `config_diff` finds of two configurations. -/
structure ConfigComparison where
  members : Dict Json
  fields : DictPatch Json

def fieldChanges (patch : DictPatch Json) : Json :=
  .obj
    [(str "added",.obj patch.added),
     (str "removed",.obj patch.removed),
     (str "changed",.obj (patch.changed.map (fun e =>
       (e.1,.obj [(str "current",e.2.1),(str "desired",e.2.2)]))))]

namespace ConfigComparison

def changes (c : ConfigComparison) : Dict Json :=
  if c.fields.isEmpty then c.members else c.members ++ [(str "fields",fieldChanges c.fields)]

def status (c : ConfigComparison) : String := if c.changes.isEmpty then "in_sync" else "drifted"

end ConfigComparison

inductive ConfigDiffDocument where
  | absent (desired : Dict Json)
  | compared (comparison : ConfigComparison)

/-- The document that `config_diff` returns. -/
def ConfigDiffDocument.toJson : ConfigDiffDocument → Json
  | .absent desired => .obj [(str "status",.str (str "absent")),(str "desired",.obj desired)]
  | .compared c => .obj [(str "status",.str (str c.status)),(str "changes",.obj c.changes)]

/-- The comparison, by an equality of payloads. -/
def compareSafe (same : Json → Json → Bool) (current desired : SafeConfigDocument)
    (desiredTrustProfileId : Str) : ConfigComparison where
  members := comparedMembers.filterMap
    (memberChange (current.document none) (desired.document (some desiredTrustProfileId)))
  fields := Dict.difference same current.fieldPayloads desired.fieldPayloads

variable (sha256Hex : Bytes → String) (loadPemCertificates : Bytes → Except Exc (List Certificate))

/-- `config_diff`, by an equality of payloads. -/
def configDiffDocument (same : Json → Json → Bool) (current : Option FleetTelemetryConfig)
    (desired : FleetTelemetryConfig) (desiredTrustProfileId : Str) :
    Except Exc ConfigDiffDocument := do
  let desiredSafe ← safeConfigDocument sha256Hex loadPemCertificates desired
  match current with
  | none => return .absent (desiredSafe.document (some desiredTrustProfileId))
  | some current =>
    let currentSafe ← safeConfigDocument sha256Hex loadPemCertificates current
    return .compared (compareSafe same currentSafe desiredSafe desiredTrustProfileId)

/-- What is hashed of CA certificates: their encodings, sorted and concatenated. -/
def caBundle (certificates : List Certificate) : Bytes :=
  ((certificates.map Certificate.der).mergeSort (fun a b => decide (a ≤ b))).flatten

/-- The certificates of a configuration's CA text. -/
def caCertificates (config : FleetTelemetryConfig) : Except Exc (List Certificate) := do
  let pem ← encodeAscii config.ca
  let certificates ← loadPemCertificates pem
  if certificates.isEmpty then throw valueError else return certificates

end Documents

/-- Python's `==` of two payloads. Objects that the payloads share equal themselves, a NaN too. -/
structure PayloadEquality (same : Json → Json → Bool) : Prop where
  of_equal : ∀ u v, pyEq u v = true → same u v = true
  shared : ∀ u v, same u v = true → u = v ∨ pyEq u v = true

/-- What the certificate loader keeps: DER encodings tell where they end, and the basic
constraints are read from the encoding. -/
structure LoadsDer (loadPemCertificates : Bytes → Except Exc (List Certificate)) : Prop where
  selfDelimiting : Codes.PrefixFree
    {der | ∃ pem certificates, loadPemCertificates pem = .ok certificates ∧
      ∃ c ∈ certificates, Certificate.der c = der}
  constraints : ∀ pem certificates pem' certificates', loadPemCertificates pem = .ok certificates →
    loadPemCertificates pem' = .ok certificates' → ∀ c ∈ certificates, ∀ c' ∈ certificates',
      c.der = c'.der → c.basicConstraintsCa = c'.basicConstraintsCa

/-- Two configurations say the same. -/
structure SameConfiguration (same : Json → Json → Bool) (current desired : FleetTelemetryConfig)
    (currentCas desiredCas : List Certificate) : Prop where
  hostname : current.hostname = desired.hostname
  port : current.port = desired.port
  cas : (currentCas.map Certificate.der).Perm (desiredCas.map Certificate.der)
  alertTypes : current.alertTypes.Perm desired.alertTypes
  deliveryPolicy : current.deliveryPolicy = desired.deliveryPolicy
  fields : (payloads current.fields).Agree (fun u v => same u v = true) (payloads desired.fields)

section Members
variable {current desired : Dict Json} {key : Str} {u v : Json}

theorem memberChange_eq_none (hu : current.get key = some u) (hv : desired.get key = some v) :
    memberChange current desired key = none ↔
      pyEq (comparedValue key u) (comparedValue key v) = true := by
  unfold memberChange
  rw [hu,hv]
  dsimp only
  split <;> simp_all

variable (safe : SafeConfigDocument) (trust : Option Str)

theorem document_nodup : (safe.document trust).keys.Nodup := by
  have h : [str "hostname",str "port",str "ca",str "fields",str "alert_types",
      str "delivery_policy"].Nodup := by decide
  exact h

theorem document_hostname : (safe.document trust).get (str "hostname") = some (.str safe.hostname) :=
  Dict.get_of_mem (document_nodup safe trust) (by simp [SafeConfigDocument.document])

theorem document_port : (safe.document trust).get (str "port") = some (.int safe.port) :=
  Dict.get_of_mem (document_nodup safe trust) (by simp [SafeConfigDocument.document])

theorem document_ca : (safe.document trust).get (str "ca") = some (.obj (safe.caEntry trust)) :=
  Dict.get_of_mem (document_nodup safe trust) (by simp [SafeConfigDocument.document])

theorem document_alertTypes :
    (safe.document trust).get (str "alert_types") = some (.arr (safe.alertTypes.map Json.str)) :=
  Dict.get_of_mem (document_nodup safe trust) (by simp [SafeConfigDocument.document])

theorem document_deliveryPolicy :
    (safe.document trust).get (str "delivery_policy") =
      some ((safe.deliveryPolicy.map Json.str).getD .null) :=
  Dict.get_of_mem (document_nodup safe trust) (by simp [SafeConfigDocument.document])

/-- The profile's identifier takes no part in the comparison. -/
theorem comparedValue_ca : comparedValue (str "ca") (.obj (safe.caEntry trust)) =
    .obj [(str "sha256",.str (str safe.caSha256)),
      (str "certificate_count",.int safe.certificateCount),
      (str "contains_non_ca",.bool safe.containsNonCa)] := by
  have hsha : str "sha256" ≠ str "profile_id" := by decide
  have hcount : str "certificate_count" ≠ str "profile_id" := by decide
  have hnonCa : str "contains_non_ca" ≠ str "profile_id" := by decide
  simp [comparedValue,SafeConfigDocument.caEntry,Dict.drop,hsha,hcount,hnonCa]

theorem pyEq_optional (key : Str) (s t : Option Str) :
    pyEq (comparedValue key ((s.map Json.str).getD .null))
      (comparedValue key ((t.map Json.str).getD .null)) = decide (s = t) := by
  cases s with
  | none =>
    cases t with
    | none => rfl
    | some t => simp [comparedValue,pyEq,Json.numeric]
  | some s =>
    cases t with
    | none => simp [comparedValue,pyEq,Json.numeric]
    | some t => simp [comparedValue]

theorem pyEq_ca (other : SafeConfigDocument) (trust' : Option Str) :
    pyEq (comparedValue (str "ca") (.obj (safe.caEntry trust)))
      (comparedValue (str "ca") (.obj (other.caEntry trust'))) = true ↔
      safe.caSha256 = other.caSha256 ∧ safe.certificateCount = other.certificateCount ∧
        safe.containsNonCa = other.containsNonCa := by
  have hnodup : [str "sha256",str "certificate_count",str "contains_non_ca"].Nodup := by decide
  rw [comparedValue_ca,comparedValue_ca,pyEq_sameKeys ?nodup ?keys]
  case nodup => exact hnodup
  case keys => rfl
  simp [pyEqItems,str_injective.eq_iff]

variable (same : Json → Json → Bool)

theorem members_isEmpty_iff (current desired : SafeConfigDocument) (trustProfileId : Str) :
    (compareSafe same current desired trustProfileId).members.isEmpty = true ↔
      current.hostname = desired.hostname ∧ current.port = desired.port ∧
        (current.caSha256 = desired.caSha256 ∧
          current.certificateCount = desired.certificateCount ∧
          current.containsNonCa = desired.containsNonCa) ∧
        current.alertTypes = desired.alertTypes ∧
        current.deliveryPolicy = desired.deliveryPolicy := by
  have halerts : ∀ xs ys : List Str, comparedValue (str "alert_types") (.arr (xs.map Json.str)) =
      .arr (xs.map Json.str) := fun _ _ => rfl
  unfold compareSafe
  rw [List.isEmpty_iff,List.filterMap_eq_nil_iff]
  simp only [comparedMembers,List.forall_mem_cons,List.not_mem_nil,false_implies,implies_true,
    and_true]
  rw [memberChange_eq_none (document_hostname ..) (document_hostname ..),
    memberChange_eq_none (document_port ..) (document_port ..),
    memberChange_eq_none (document_ca ..) (document_ca ..),
    memberChange_eq_none (document_alertTypes ..) (document_alertTypes ..),
    memberChange_eq_none (document_deliveryPolicy ..) (document_deliveryPolicy ..),
    pyEq_ca,pyEq_optional]
  simp only [comparedValue,pyEq_str,pyEq_int,pyEq_arr,pyEqItems_strs,decide_eq_true_eq]

theorem ConfigComparison.inSync_iff (c : ConfigComparison) :
    c.status = "in_sync" ↔ c.members.isEmpty = true ∧ c.fields.isEmpty = true := by
  unfold ConfigComparison.status ConfigComparison.changes
  by_cases hfields : c.fields.isEmpty = true
  · simp [hfields]
  · simp [hfields]

end Members

section Fields
variable {d : Dict FleetTelemetryField}

theorem keys_payloads (d : Dict FleetTelemetryField) : (payloads d).keys = d.keys :=
  Dict.keys_mapValues _

theorem get_payloads_sorted (h : d.keys.Nodup) (name : Str) :
    (payloads d.sorted).get name = (payloads d).get name := by
  have hperm : (payloads d.sorted).Perm (payloads d) := (Dict.sorted_perm d).map _
  refine Dict.get_perm ?_ hperm
  rw [keys_payloads]
  exact (Dict.keys_perm (Dict.sorted_perm d)).nodup_iff.mpr h

end Fields

section Coarse

theorem pyEq_toJson (x y : Number) : pyEq x.toJson y.toJson = x.eq y := by
  have hnumeric : ∀ z : Number, z.toJson.numeric = z.key := by
    intro z
    match z with
    | .int _ => rfl
    | .float .nan => rfl
    | .float (.inf _) => rfl
    | .float (.finite _ _) => rfl
  unfold Number.eq
  rw [← hnumeric,← hnumeric]
  cases x <;> cases y <;> exact (pyEq.eq_def _ _).trans rfl

/-- Payloads are equal exactly where their fields are: a member is left out where it is not set. -/
theorem pyEq_toPayload (a b : FleetTelemetryField) : pyEq a.toPayload b.toPayload = a.eq b := by
  obtain ⟨aInterval,aDelta,aResend,aInclude⟩ := a
  obtain ⟨bInterval,bDelta,bResend,bInclude⟩ := b
  have h₁ : str "interval_seconds" ≠ str "minimum_delta" := by decide
  have h₂ : str "interval_seconds" ≠ str "resend_interval_seconds" := by decide
  have h₃ : str "interval_seconds" ≠ str "include_fields" := by decide
  have h₄ : str "minimum_delta" ≠ str "resend_interval_seconds" := by decide
  have h₅ : str "minimum_delta" ≠ str "include_fields" := by decide
  have h₆ : str "resend_interval_seconds" ≠ str "include_fields" := by decide
  cases aDelta <;> cases bDelta <;> cases aResend <;> cases bResend <;>
    by_cases ha : aInclude = [] <;> by_cases hb : bInclude = [] <;>
    simp [FleetTelemetryField.toPayload,FleetTelemetryField.eq,pyEqEntries,
      pyEq_toJson,pyEqItems_strs,Dict.get,ha,hb,h₁,h₂,h₃,h₄,h₅,h₆,h₄.symm,
      h₅.symm,h₆.symm,Bool.and_assoc]

theorem agree_payloads {d e : Dict FleetTelemetryField} :
    (payloads d).Agree (fun u v => pyEq u v = true) (payloads e) ↔
      d.Agree (fun a b => a.eq b = true) e := by
  refine forall_congr' (fun name => ?_)
  unfold payloads
  rw [Dict.get_mapValues,Dict.get_mapValues]
  cases d.get name with
  | none => cases e.get name <;> simp
  | some a =>
    cases e.get name with
    | none => simp
    | some b => simp [pyEq_toPayload]

theorem ConfigDiff.inSync_iff {changes : List String} {added removed changed : List Str} :
    (ConfigDiff.compared changes added removed changed).status = "in_sync" ↔
      changes = [] ∧ added = [] ∧ removed = [] ∧ changed = [] := by
  cases changes <;> cases added <;> cases removed <;> cases changed <;> simp [ConfigDiff.status]

/-- The coarse comparison finds a drift exactly where the fields or a member differ. -/
theorem compareDocuments_inSync_iff {current desired : SafeConfigDocument}
    (hc : current.fields.keys.Nodup) (hd : desired.fields.keys.Nodup) :
    (compareDocuments current desired).status = "in_sync" ↔
      (current.hostname = desired.hostname ∧ current.port = desired.port ∧
        (current.caSha256 = desired.caSha256 ∧
          current.certificateCount = desired.certificateCount ∧
          current.containsNonCa = desired.containsNonCa) ∧
        current.alertTypes = desired.alertTypes ∧
        current.deliveryPolicy = desired.deliveryPolicy) ∧
      current.fields.Agree (fun a b => a.eq b = true) desired.fields := by
  unfold compareDocuments compareDocumentsBy
  rw [ConfigDiff.inSync_iff]
  refine and_congr ?members ?fields
  case members =>
    simp only [List.append_eq_nil_iff,ite_eq_left_iff,List.cons_ne_nil,imp_false,not_not,and_assoc]
  case fields =>
    rw [← difference_isEmpty_iff hc hd,difference_isEmpty]
    refine and_congr List.map_eq_nil_iff (and_congr List.map_eq_nil_iff ?_)
    rw [List.map_eq_nil_iff,Dict.differing,List.filter_eq_nil_iff,List.filterMap_eq_nil_iff]
    refine forall₂_congr (fun entry _ => ?_)
    cases desired.fields.get entry.1 with
    | none => simp
    | some field => simp

/-- The comparison of the names alone has the status of the whole one. -/
theorem status_compareDocuments {current desired : SafeConfigDocument}
    (hc : current.fields.keys.Nodup) (hd : desired.fields.keys.Nodup) (trustProfileId : Str) :
    (compareSafe pyEq current desired trustProfileId).status = "in_sync" ↔
      (compareDocuments current desired).status = "in_sync" := by
  have hnodup : ∀ {d : Dict FleetTelemetryField}, d.keys.Nodup → (payloads d.sorted).keys.Nodup := by
    intro d hd
    rw [keys_payloads]
    exact (Dict.keys_perm (Dict.sorted_perm d)).nodup_iff.mpr hd
  rw [ConfigComparison.inSync_iff,members_isEmpty_iff,compareDocuments_inSync_iff hc hd,
    ← agree_payloads]
  refine and_congr_right (fun _ => ?_)
  refine (difference_isEmpty_iff (hnodup hc) (hnodup hd)).trans (forall_congr' (fun name => ?_))
  rw [get_payloads_sorted hc,get_payloads_sorted hd]

end Coarse

section Exactness
variable {sha256Hex : Bytes → String} {loadPemCertificates : Bytes → Except Exc (List Certificate)}
  {same : Json → Json → Bool} {current desired : FleetTelemetryConfig}

/-- The safe document of a configuration with these CA certificates. -/
def safeOf (sha256Hex : Bytes → String) (config : FleetTelemetryConfig)
    (certificates : List Certificate) : SafeConfigDocument :=
  { hostname := config.hostname
    port := config.port
    caSha256 := sha256Hex (caBundle certificates)
    certificateCount := certificates.length
    containsNonCa := certificates.any (fun c => c.basicConstraintsCa ≠ some true)
    fields := config.fields
    alertTypes := config.alertTypes.mergeSort (fun a b => decide (a ≤ b))
    deliveryPolicy := config.deliveryPolicy }

theorem safeConfigDocument_eq {config : FleetTelemetryConfig} {certificates : List Certificate}
    (h : caCertificates loadPemCertificates config = .ok certificates) :
    safeConfigDocument sha256Hex loadPemCertificates config =
      .ok (safeOf sha256Hex config certificates) := by
  unfold caCertificates at h
  obtain ⟨pem,hpem,h⟩ := bind_eq_ok.mp h
  obtain ⟨loaded,hloaded,h⟩ := bind_eq_ok.mp h
  split at h
  · cases h
  · rename_i hempty
    obtain rfl := Except.ok.inj h
    unfold safeConfigDocument
    refine bind_eq_ok.mpr ⟨pem,hpem,bind_eq_ok.mpr ⟨loaded,hloaded,?_⟩⟩
    rw [if_neg hempty]
    rfl

theorem caCertificates_loaded {config : FleetTelemetryConfig} {certificates : List Certificate}
    (h : caCertificates loadPemCertificates config = .ok certificates) :
    ∃ pem, loadPemCertificates pem = .ok certificates := by
  unfold caCertificates at h
  obtain ⟨pem,_,h⟩ := bind_eq_ok.mp h
  obtain ⟨loaded,hloaded,h⟩ := bind_eq_ok.mp h
  split at h
  · cases h
  · obtain rfl := Except.ok.inj h
    exact ⟨pem,hloaded⟩

/-- The encodings that the loader gives. -/
theorem loaded_der {config : FleetTelemetryConfig} {certificates : List Certificate}
    (h : caCertificates loadPemCertificates config = .ok certificates) :
    ∀ der ∈ certificates.map Certificate.der, der ∈
      {der | ∃ pem certificates, loadPemCertificates pem = .ok certificates ∧
        ∃ c ∈ certificates, Certificate.der c = der} := by
  obtain ⟨pem,hpem⟩ := caCertificates_loaded h
  intro der hmem
  exact ⟨pem,certificates,hpem,List.mem_map.mp hmem⟩

theorem containsNonCa_of_der (hder : LoadsDer loadPemCertificates)
    {currentCas desiredCas : List Certificate}
    (hcurrent : caCertificates loadPemCertificates current = .ok currentCas)
    (hdesired : caCertificates loadPemCertificates desired = .ok desiredCas)
    (hsub : ∀ der ∈ currentCas.map Certificate.der, der ∈ desiredCas.map Certificate.der)
    (h : (safeOf sha256Hex current currentCas).containsNonCa = true) :
    (safeOf sha256Hex desired desiredCas).containsNonCa = true := by
  obtain ⟨pem,hpem⟩ := caCertificates_loaded hcurrent
  obtain ⟨pem',hpem'⟩ := caCertificates_loaded hdesired
  obtain ⟨c,hc,hnonCa⟩ := List.any_eq_true.mp h
  obtain ⟨c',hc',hsame⟩ := List.mem_map.mp (hsub c.der (List.mem_map_of_mem hc))
  have hconstraints := hder.constraints pem currentCas pem' desiredCas hpem hpem' c hc c' hc' hsame.symm
  rw [hconstraints] at hnonCa
  exact List.any_eq_true.mpr ⟨c',hc',hnonCa⟩

/-- The CA entries are equal exactly where the DER encodings are, as a multiset. -/
theorem ca_eq_iff (hder : LoadsDer loadPemCertificates) {currentCas desiredCas : List Certificate}
    (hsha : sha256Hex (caBundle currentCas) = sha256Hex (caBundle desiredCas) →
      caBundle currentCas = caBundle desiredCas)
    (hcurrent : caCertificates loadPemCertificates current = .ok currentCas)
    (hdesired : caCertificates loadPemCertificates desired = .ok desiredCas) :
    ((safeOf sha256Hex current currentCas).caSha256 =
        (safeOf sha256Hex desired desiredCas).caSha256 ∧
      (safeOf sha256Hex current currentCas).certificateCount =
        (safeOf sha256Hex desired desiredCas).certificateCount ∧
      (safeOf sha256Hex current currentCas).containsNonCa =
        (safeOf sha256Hex desired desiredCas).containsNonCa) ↔
      (currentCas.map Certificate.der).Perm (desiredCas.map Certificate.der) := by
  have hconcat := fun hlength => hder.selfDelimiting.concatenation_eq_iff (loaded_der hcurrent)
    (loaded_der hdesired) hlength
  constructor
  · rintro ⟨hhash,hcount,_⟩
    have hlength : (currentCas.map Certificate.der).length = (desiredCas.map Certificate.der).length := by
      rw [List.length_map,List.length_map]
      exact hcount
    exact (hconcat hlength).mp (hsha hhash)
  · intro hperm
    have hlength := hperm.length_eq
    refine ⟨congrArg sha256Hex ((hconcat hlength).mpr hperm),?_,?_⟩
    · rw [List.length_map,List.length_map] at hlength
      exact hlength
    · rw [Bool.eq_iff_iff]
      constructor
      · exact containsNonCa_of_der hder hcurrent hdesired (fun _ h => hperm.mem_iff.mp h)
      · exact containsNonCa_of_der hder hdesired hcurrent (fun _ h => hperm.mem_iff.mpr h)

/-- The sorted payloads of a field map are its payloads. -/
theorem get_fieldPayloads (sha256Hex : Bytes → String) {config : FleetTelemetryConfig}
    (h : config.fields.keys.Nodup) (certificates : List Certificate) (name : Str) :
    (safeOf sha256Hex config certificates).fieldPayloads.get name =
      (payloads config.fields).get name := get_payloads_sorted h name

theorem nodup_fieldPayloads (sha256Hex : Bytes → String) {config : FleetTelemetryConfig}
    (h : config.fields.keys.Nodup) (certificates : List Certificate) :
    (safeOf sha256Hex config certificates).fieldPayloads.keys.Nodup := by
  unfold SafeConfigDocument.fieldPayloads
  rw [keys_payloads]
  exact (Dict.keys_perm (Dict.sorted_perm _)).nodup_iff.mpr h

end Exactness

/-- The comparison reports a drift exactly where two configurations differ, and what it reports
of the fields leads from the one to the other. The hash need only tell the two bundles apart. -/
theorem configDiff_exact {sha256Hex : Bytes → String}
    {loadPemCertificates : Bytes → Except Exc (List Certificate)} {same : Json → Json → Bool}
    (hder : LoadsDer loadPemCertificates) (hsame : PayloadEquality same)
    {current desired : FleetTelemetryConfig} {currentCas desiredCas : List Certificate}
    (hsha : sha256Hex (caBundle currentCas) = sha256Hex (caBundle desiredCas) →
      caBundle currentCas = caBundle desiredCas)
    (hc : current.fields.keys.Nodup) (hd : desired.fields.keys.Nodup)
    (hcurrent : caCertificates loadPemCertificates current = .ok currentCas)
    (hdesired : caCertificates loadPemCertificates desired = .ok desiredCas)
    (desiredTrustProfileId : Str) :
    ∃ comparison, configDiffDocument sha256Hex loadPemCertificates same (some current) desired
        desiredTrustProfileId = .ok (.compared comparison) ∧
      (comparison.status = "in_sync" ↔
        SameConfiguration same current desired currentCas desiredCas) ∧
      comparison.fields.Disjoint ∧
      (comparison.fields.apply (payloads current.fields)).Agree
        (fun u v => u = v ∨ pyEq u v = true) (payloads desired.fields) := by
  have hsorted := nodup_fieldPayloads sha256Hex hc currentCas
  have hsorted' := nodup_fieldPayloads sha256Hex hd desiredCas
  refine ⟨compareSafe same (safeOf sha256Hex current currentCas)
    (safeOf sha256Hex desired desiredCas) desiredTrustProfileId,?_,?_,?_,?_⟩
  · unfold configDiffDocument
    exact bind_eq_ok.mpr ⟨_,safeConfigDocument_eq hdesired,
      bind_eq_ok.mpr ⟨_,safeConfigDocument_eq hcurrent,rfl⟩⟩
  · rw [ConfigComparison.inSync_iff,members_isEmpty_iff,ca_eq_iff hder hsha hcurrent hdesired]
    have hfields : (compareSafe same (safeOf sha256Hex current currentCas)
        (safeOf sha256Hex desired desiredCas) desiredTrustProfileId).fields.isEmpty = true ↔
        (payloads current.fields).Agree (fun u v => same u v = true) (payloads desired.fields) := by
      refine (difference_isEmpty_iff hsorted hsorted').trans (forall_congr' (fun name => ?_))
      rw [get_fieldPayloads sha256Hex hc,get_fieldPayloads sha256Hex hd]
    have halerts : (safeOf sha256Hex current currentCas).alertTypes =
        (safeOf sha256Hex desired desiredCas).alertTypes ↔
        current.alertTypes.Perm desired.alertTypes := Codes.mergeSort_eq_iff
    rw [hfields,halerts]
    constructor
    · rintro ⟨⟨hostname,port,cas,alertTypes,deliveryPolicy⟩,fields⟩
      exact { hostname, port, cas, alertTypes, deliveryPolicy, fields }
    · intro h
      exact ⟨⟨h.hostname,h.port,h.cas,h.alertTypes,h.deliveryPolicy⟩,h.fields⟩
  · exact difference_disjoint _ _ _
  · have happlied := apply_difference_agree hsorted hsorted' hsame.shared
      (fun v => .inl rfl) (fun name => (get_fieldPayloads sha256Hex hc currentCas name).symm)
    intro name
    have hname := happlied name
    rwa [get_fieldPayloads sha256Hex hd desiredCas] at hname

section Witness

/-- The configuration of `streamedConfig` with another CA, interval and field. -/
def retunedConfig : FleetTelemetryConfig :=
  { streamedConfig with
    ca := pemText secondRoot
    fields :=
      [(str "Soc",{ intervalSeconds := 30, includeFields := [str "Odometer"] }),
       (str "Gear",{ intervalSeconds := 1 })] }

theorem rootCertificates_ok {pem : Bytes} {certificates : List Certificate}
    (h : rootCertificates pem = .ok certificates) :
    certificates = [⟨firstRoot,some true⟩] ∨ certificates = [⟨secondRoot,some true⟩] := by
  unfold rootCertificates at h
  split at h
  · exact .inl (Except.ok.inj h).symm
  · split at h
    · exact .inr (Except.ok.inj h).symm
    · cases h

theorem root_loaded {pem : Bytes} {certificates : List Certificate} {c : Certificate}
    (h : rootCertificates pem = .ok certificates) (hc : c ∈ certificates) :
    (c.der = firstRoot ∨ c.der = secondRoot) ∧ c.basicConstraintsCa = some true := by
  rcases rootCertificates_ok h with rfl | rfl
  · obtain rfl := List.mem_singleton.mp hc
    exact ⟨.inl rfl,rfl⟩
  · obtain rfl := List.mem_singleton.mp hc
    exact ⟨.inr rfl,rfl⟩

theorem roots_apart : ¬ firstRoot <+: secondRoot ∧ ¬ secondRoot <+: firstRoot := by
  decide +kernel

theorem roots_loads : LoadsDer rootCertificates := by
  obtain ⟨hfirst,hsecond⟩ := roots_apart
  constructor
  · rintro u ⟨pem,certificates,hload,c,hc,rfl⟩ v ⟨pem',certificates',hload',c',hc',rfl⟩ hprefix
    obtain ⟨hder,_⟩ := root_loaded hload hc
    obtain ⟨hder',_⟩ := root_loaded hload' hc'
    rcases hder with hder | hder <;> rcases hder' with hder' | hder' <;> rw [hder,hder'] at hprefix ⊢
    · exact absurd hprefix hfirst
    · exact absurd hprefix hsecond
  · intro pem certificates pem' certificates' hload hload' c hc c' hc' _
    exact (root_loaded hload hc).2.trans (root_loaded hload' hc').2.symm

theorem pyEq_payloadEquality : PayloadEquality pyEq where
  of_equal := fun _ _ h => h
  shared := fun _ _ h => .inr h

theorem caBundle_singleton (c : Certificate) : caBundle [c] = c.der := by
  simp [caBundle]

theorem configDiff_exact_retuned :
    ∃ comparison, configDiffDocument rootDigest rootCertificates pyEq (some streamedConfig)
        retunedConfig (str "prod") = .ok (.compared comparison) ∧
      comparison.status ≠ "in_sync" ∧ comparison.fields.Disjoint ∧
      (comparison.fields.apply (payloads streamedConfig.fields)).Agree
        (fun u v => u = v ∨ pyEq u v = true) (payloads retunedConfig.fields) := by
  have hfirst : caCertificates rootCertificates streamedConfig = .ok [⟨firstRoot,some true⟩] := by
    unfold caCertificates
    rw [show streamedConfig.ca = pemText firstRoot from rfl,encodeAscii_pemText]
    have hload : rootCertificates (asciiBytes (pemText firstRoot)) = .ok [⟨firstRoot,some true⟩] :=
      if_pos rfl
    simp only [bind,Except.bind,hload]
    rfl
  have hsecond : caCertificates rootCertificates retunedConfig = .ok [⟨secondRoot,some true⟩] := by
    unfold caCertificates
    rw [show retunedConfig.ca = pemText secondRoot from rfl,encodeAscii_pemText]
    have hload : rootCertificates (asciiBytes (pemText secondRoot)) =
        .ok [⟨secondRoot,some true⟩] := by
      unfold rootCertificates
      rw [if_neg (by decide +kernel),if_pos rfl]
    simp only [bind,Except.bind,hload]
    rfl
  have hdigests : rootDigest firstRoot ≠ rootDigest secondRoot := by
    decide +kernel
  obtain ⟨comparison,hdiff,hsync,hdisjoint,hagree⟩ := configDiff_exact roots_loads
    pyEq_payloadEquality
    (fun h => absurd (by rwa [caBundle_singleton,caBundle_singleton] at h) hdigests)
    (by decide) (by decide) hfirst hsecond (str "prod")
  refine ⟨comparison,hdiff,?_,hdisjoint,hagree⟩
  intro hstatus
  -- the two bundles are not the same certificates
  have hperm := (hsync.mp hstatus).cas
  rw [List.map_singleton,List.map_singleton,List.singleton_perm_singleton] at hperm
  have hsame : firstRoot = secondRoot := hperm
  exact roots_apart.1 (hsame ▸ List.prefix_refl firstRoot)

end Witness

end Woodhouse.Telemetry
