import Woodhouse.Telemetry.Documents
import Mathlib.Data.Int.ConditionallyCompleteOrder
import Mathlib.Data.List.Dedup
import Mathlib.Data.Prod.Lex
import Mathlib.Order.WithBot

namespace Woodhouse.Telemetry
open Python
open Gateway (Exc)

section Versions

/-- A client version: a malformed or absent one is below every other. -/
abbrev ClientVersion := WithBot (Int ×ₗ Int ×ₗ Int)

def clientVersion (version : Int × Int × Int) : ClientVersion :=
  ((toLex (version.1,toLex version.2) : Int ×ₗ Int ×ₗ Int) : ClientVersion)

/-- The version that `_version_at_least` compares, and the error of a number with too many
digits. -/
def parsedVersion (value : Option String) : Except Exc ClientVersion :=
  match value with
  | none => .ok ⊥
  | some value =>
    match semverGroups (removeLeadingV (str (Identity.strip value))) with
    | none => .ok ⊥
    | some (a,b,c) => do
      let a ← intOfGroup a
      let b ← intOfGroup b
      let c ← intOfGroup c
      return clientVersion (a,b,c)

theorem clientVersion_le {a b : Int × Int × Int} :
    clientVersion a ≤ clientVersion b ↔
      a.1 < b.1 ∨ a.1 = b.1 ∧ (a.2.1 < b.2.1 ∨ a.2.1 = b.2.1 ∧ a.2.2 ≤ b.2.2) := by
  unfold clientVersion
  rw [WithBot.coe_le_coe, Prod.Lex.toLex_le_toLex, Prod.Lex.toLex_le_toLex]

theorem clientVersion_ne_bot (a : Int × Int × Int) : clientVersion a ≠ ⊥ := WithBot.coe_ne_bot

theorem versionAtLeast_eq (value : Option String) (minimum : Int × Int × Int) :
    versionAtLeast value minimum =
      (parsedVersion value).map (fun version => decide (clientVersion minimum ≤ version)) := by
  unfold versionAtLeast parsedVersion
  cases value with
  | none => simp [Except.map, clientVersion_ne_bot]
  | some value =>
    dsimp only
    cases semverGroups (removeLeadingV (str (Identity.strip value))) with
    | none => simp [Except.map, clientVersion_ne_bot]
    | some groups =>
      obtain ⟨a, b, c⟩ := groups
      dsimp only
      cases intOfGroup a with
      | error e => rfl
      | ok a =>
        cases intOfGroup b with
        | error e => rfl
        | ok b =>
          cases intOfGroup c with
          | error e => rfl
          | ok c =>
            refine congrArg Except.ok (Bool.eq_iff_iff.mpr ?_)
            simp only [decide_eq_true_eq]
            exact (clientVersion_le (a := minimum) (b := (a,b,c))).symm

theorem versionAtLeast_ok {value : Option String} {minimum : Int × Int × Int} {b : Bool}
    (h : versionAtLeast value minimum = .ok b) :
    ∃ version, parsedVersion value = .ok version ∧ (b = true ↔ clientVersion minimum ≤ version) := by
  rw [versionAtLeast_eq] at h
  cases hv : parsedVersion value with
  | error e =>
    rw [hv] at h
    cases h
  | ok version =>
    rw [hv] at h
    refine ⟨version, rfl, ?_⟩
    rw [← Except.ok.inj h, decide_eq_true_eq]

end Versions

section Sections
variable {catalog : List Str} {s : ProfileSections}

/-- How the sections of two accepted documents divide the catalog. -/
structure Divided (catalog : List Str) (s : ProfileSections) : Prop where
  overrides : ∀ name ∈ s.overrides.keys, name ∈ s.baseline.keys ∧ name ∉ s.removals.keys
  removals : ∀ name ∈ s.removals.keys, name ∈ s.baseline.keys
  additions : ∀ name ∈ s.additions.keys, name ∉ s.baseline.keys ∧ name ∉ s.omissions.keys
  omissions : ∀ name ∈ s.omissions.keys, name ∉ s.baseline.keys
  every : ∀ name ∈ catalog, name ∉ s.baseline.keys →
    name ∈ s.additions.keys ∨ name ∈ s.omissions.keys

theorem not_meets {a b : List Str} (h : ¬ meets a b = true) : ∀ name ∈ a, name ∉ b := by
  intro name ha hb
  apply h
  unfold meets
  rw [List.any_eq_true]
  exact ⟨name, ha, by simpa using hb⟩

theorem validateDeclarativePartition_divided {catalog : Dict TelemetryFieldDefinition}
    (h : validateDeclarativePartition catalog s = .ok ()) : Divided catalog.keys s := by
  unfold validateDeclarativePartition at h
  dsimp only at h
  repeat (split at h; · cases h)
  rename_i _ hoverrides hremovals hkept hadditions homissions hdecided hevery
  rw [not_or, not_not, not_not] at hevery
  constructor
  · intro name hn
    exact ⟨not_not.mp hoverrides hn, not_meets hkept name hn⟩
  · exact fun name hn => not_not.mp hremovals hn
  · intro name hn
    exact ⟨not_meets hadditions name hn, not_meets hdecided name hn⟩
  · exact not_meets homissions
  · intro name hn hbase
    apply List.mem_append.mp
    apply hevery.2
    rw [List.mem_filter]
    exact ⟨hn, by simpa using hbase⟩

theorem mem_configured {name : Str} : name ∈ s.configured.keys ↔
    ((name ∈ s.baseline.keys ∧ name ∉ s.removals.keys) ∨ name ∈ s.overrides.keys) ∨
      name ∈ s.additions.keys := by
  unfold ProfileSections.configured
  rw [Dict.mem_keys_update, Dict.mem_keys_update, Dict.mem_keys_drop, Dict.keys_mapValues,
    Dict.keys_mapValues]

/-- A catalog field is configured or excluded, and not both. -/
theorem Divided.configured_iff (hd : Divided catalog s) {name : Str} (hn : name ∈ catalog) :
    name ∈ s.configured.keys ↔ name ∉ (s.omissions.update s.removals).keys := by
  rw [mem_configured, Dict.mem_keys_update, not_or]
  by_cases hbase : name ∈ s.baseline.keys
  · have hadd : name ∉ s.additions.keys := fun h => (hd.additions name h).1 hbase
    have homit : name ∉ s.omissions.keys := fun h => hd.omissions name h hbase
    have hover := fun h => (hd.overrides name h).2
    simp only [hbase, true_and, hadd, or_false, homit, not_false_eq_true]
    exact or_iff_left_of_imp hover
  · have hover : name ∉ s.overrides.keys := fun h => hbase (hd.overrides name h).1
    have hremove : name ∉ s.removals.keys := fun h => hbase (hd.removals name h)
    simp only [hbase, hover, or_false, false_or, hremove, not_false_eq_true, and_true]
    constructor
    · exact fun h => (hd.additions name h).2
    · exact (hd.every name hn hbase).resolve_right

end Sections

section Gates
variable {configured : Dict FleetTelemetryField} {supportsSelfDriving supportsIncludeFields : Bool}
  {name : Str}

/-- What is left of a configured field for a client. -/
def withSupport (supportsIncludeFields : Bool) (field : FleetTelemetryField) : FleetTelemetryField :=
  if supportsIncludeFields then field else { field with includeFields := [] }

/-- The fields that a client is configured with, before their included fields are looked at. -/
def drivable (configured : Dict FleetTelemetryField) (supportsSelfDriving : Bool) :
    Dict FleetTelemetryField :=
  if supportsSelfDriving then configured else configured.drop selfDrivingFields

theorem gated_fields : (gated configured supportsSelfDriving supportsIncludeFields).1 =
    (drivable configured supportsSelfDriving).map
      (fun e => (e.1,withSupport supportsIncludeFields e.2)) := by
  cases supportsSelfDriving <;> cases supportsIncludeFields <;>
    simp [gated, drivable, withSupport]

theorem mem_drivable : name ∈ (drivable configured supportsSelfDriving).keys ↔
    name ∈ configured.keys ∧ (supportsSelfDriving = true ∨ name ∉ selfDrivingFields) := by
  unfold drivable
  cases supportsSelfDriving with
  | true => simp
  | false => simp [Dict.mem_keys_drop]

theorem gated_omissions :
    name ∈ (gated configured supportsSelfDriving supportsIncludeFields).2.keys ↔
      (supportsSelfDriving = false ∧ name ∈ selfDrivingFields ∧ name ∈ configured.keys) ∨
      (supportsIncludeFields = false ∧ ∃ e ∈ drivable configured supportsSelfDriving,
        e.2.includeFields ≠ [] ∧ name = includeOmission e.1) := by
  have hself : name ∈ ((selfDrivingFields.filter (fun field => field ∈ configured.keys)).map
      (fun field => (field,selfDrivingReason))).map Prod.fst ↔
      name ∈ selfDrivingFields ∧ name ∈ configured.keys := by
    simp [Function.comp_def]
  have hinclude : ∀ fields : Dict FleetTelemetryField, name ∈
      ((fields.filter (fun e => e.2.includeFields ≠ [])).map
        (fun e => (includeOmission e.1,includeReason))).map Prod.fst ↔
      ∃ e ∈ fields, e.2.includeFields ≠ [] ∧ name = includeOmission e.1 := by
    intro fields
    simp only [List.map_map, List.mem_map, List.mem_filter, decide_eq_true_eq, Function.comp_apply]
    constructor
    · intro h
      obtain ⟨e, ⟨he, hne⟩, hname⟩ := h
      exact ⟨e, he, hne, hname.symm⟩
    · intro h
      obtain ⟨e, he, hne, hname⟩ := h
      exact ⟨e, ⟨he, hne⟩, hname.symm⟩
  unfold gated drivable
  cases supportsSelfDriving with
  | true =>
    cases supportsIncludeFields with
    | true => simp [Dict.keys]
    | false =>
      simp only [↓reduceIte, Bool.false_eq_true, Dict.mem_keys_update]
      unfold Dict.keys
      rw [hinclude]
      simp
  | false =>
    cases supportsIncludeFields with
    | true =>
      simp only [↓reduceIte, Bool.false_eq_true]
      rw [Dict.keys, hself]
      simp
    | false =>
      simp only [↓reduceIte, Bool.false_eq_true, Dict.mem_keys_update]
      unfold Dict.keys at hself hinclude ⊢
      rw [hself, hinclude]
      simp

/-- No self-driving statistic is named like a left-out include. -/
theorem selfDriving_ne_includeOmission (h : name ∈ selfDrivingFields) (field : Str) :
    name ≠ includeOmission field := by
  intro hname
  have hlast : name.getLast? = some 115 := by
    rw [hname]
    simp [includeOmission, str]
  simp only [selfDrivingFields, List.mem_cons, List.not_mem_nil, or_false] at h
  rcases h with rfl | rfl
  · revert hlast
    decide
  · revert hlast
    decide

end Gates

section Profiles
variable {rows : List CatalogRow} {baselineDocument profileDocument : Dict Toml}
  {profileMeta : Dict Toml} {baselineName : String} {s : ProfileSections}

/-- The names of the catalog. -/
def catalogNames (rows : List CatalogRow) : List Str := rows.map (fun row => row.definition.name)

theorem mapError_eq_ok {ε ε' α : Type} {x : Except ε α} {f : ε → ε'} {a : α} :
    x.mapError f = .ok a ↔ x = .ok a := by
  cases x with
  | error e => simp [Except.mapError]
  | ok b => simp [Except.mapError]

theorem loadProfileSections_divided
    (h : loadProfileSections rows baselineDocument profileDocument = .ok (profileMeta,baselineName,s)) :
    Divided (catalogNames rows) s := by
  unfold loadProfileSections at h
  obtain ⟨definitions, hcatalog, h⟩ := bind_eq_ok.mp h
  obtain ⟨_, _, h⟩ := bind_eq_ok.mp h
  obtain ⟨_, _, h⟩ := bind_eq_ok.mp h
  obtain ⟨_, _, h⟩ := bind_eq_ok.mp h
  obtain ⟨sections, _, h⟩ := bind_eq_ok.mp h
  obtain ⟨_, hvalid, h⟩ := bind_eq_ok.mp h
  obtain rfl : sections = s := congrArg (fun t => t.2.2) (Except.ok.inj h)
  have hdivided := validateDeclarativePartition_divided hvalid
  unfold loadFieldCatalog at hcatalog
  dsimp only at hcatalog
  split at hcatalog
  · cases hcatalog
  · obtain rfl := Except.ok.inj hcatalog
    simpa [Dict.keys, catalogNames, Function.comp_def] using hdivided

/-- A profile from the documents, by the version of the client. -/
theorem broadProfileFrom_ok {value : Option String} {p : BroadProfile}
    (h : broadProfileFrom rows baselineDocument profileDocument value = .ok p) :
    ∃ profileMeta baselineName s version supportsSelfDriving supportsIncludeFields,
      loadProfileSections rows baselineDocument profileDocument = .ok (profileMeta,baselineName,s) ∧
      parsedVersion value = .ok version ∧
      (supportsSelfDriving = true ↔ clientVersion (1,2,0) ≤ version) ∧
      (supportsIncludeFields = true ↔ clientVersion (1,3,0) ≤ version) ∧
      assembleProfile profileMeta baselineName s supportsSelfDriving supportsIncludeFields = .ok p := by
  unfold broadProfileFrom at h
  obtain ⟨⟨profileMeta, baselineName, s⟩, hload, h⟩ := bind_eq_ok.mp h
  obtain ⟨supportsSelfDriving, hself, h⟩ := bind_eq_ok.mp h
  obtain ⟨supportsIncludeFields, hinclude, h⟩ := bind_eq_ok.mp h
  obtain ⟨version, hversion, hself⟩ := versionAtLeast_ok hself
  obtain ⟨version', hversion', hinclude⟩ := versionAtLeast_ok hinclude
  obtain rfl := Except.ok.inj (hversion.symm.trans hversion')
  exact ⟨profileMeta, baselineName, s, version, supportsSelfDriving, supportsIncludeFields,
    mapError_eq_ok.mp hload, hversion, hself, hinclude, mapError_eq_ok.mp h⟩

/-- The profile of a client, from documents that load. -/
theorem broadProfileFrom_eq {value : Option String} {version : ClientVersion}
    (hload : loadProfileSections rows baselineDocument profileDocument = .ok (profileMeta,baselineName,s))
    (hv : parsedVersion value = .ok version) :
    broadProfileFrom rows baselineDocument profileDocument value =
      (assembleProfile profileMeta baselineName s (decide (clientVersion (1,2,0) ≤ version))
        (decide (clientVersion (1,3,0) ≤ version))).mapError ProfileError.exc := by
  unfold broadProfileFrom
  rw [hload, versionAtLeast_eq, versionAtLeast_eq, hv]
  rfl

theorem assembleProfile_ok {supportsSelfDriving supportsIncludeFields : Bool} {p : BroadProfile}
    (h : assembleProfile profileMeta baselineName s supportsSelfDriving supportsIncludeFields = .ok p) :
    p.fields = (gated s.configured supportsSelfDriving supportsIncludeFields).1 ∧
    p.capabilityOmissions = (gated s.configured supportsSelfDriving supportsIncludeFields).2 ∧
    p.excludedFields = s.omissions.update s.removals ∧
    ∀ b b', ∃ p', assembleProfile profileMeta baselineName s b b' = .ok p' := by
  unfold assembleProfile at h
  obtain ⟨version, hversion, h⟩ := bind_eq_ok.mp h
  obtain ⟨schemaVersion, hschema, h⟩ := bind_eq_ok.mp h
  obtain ⟨alertTypes, halerts, h⟩ := bind_eq_ok.mp h
  obtain ⟨deliveryPolicy, hdelivery, h⟩ := bind_eq_ok.mp h
  obtain rfl := Except.ok.inj h
  refine ⟨rfl, rfl, rfl, ?_⟩
  intro b b'
  unfold assembleProfile
  rw [hversion, hschema, halerts, hdelivery]
  exact ⟨_, rfl⟩

/-- The reviewed profile of the documents of a profile. -/
def BroadProfile.reviewed (p : BroadProfile) (s : ProfileSections) : ReviewedProfile :=
  { version := p.version
    schemaVersion := p.schemaVersion
    baselineName := p.baselineName
    fields := s.configured
    alertTypes := p.alertTypes
    deliveryPolicy := p.deliveryPolicy }

/-- All the profiles of two documents are those of one reviewed profile. -/
theorem assembleProfile_reviewed {b b' c c' : Bool} {p p' : BroadProfile}
    (h : assembleProfile profileMeta baselineName s b b' = .ok p)
    (h' : assembleProfile profileMeta baselineName s c c' = .ok p') :
    p'.reviewed s = p.reviewed s := by
  unfold assembleProfile at h h'
  obtain ⟨version, hversion, h⟩ := bind_eq_ok.mp h
  obtain ⟨schemaVersion, hschema, h⟩ := bind_eq_ok.mp h
  obtain ⟨alertTypes, halerts, h⟩ := bind_eq_ok.mp h
  obtain ⟨deliveryPolicy, hdelivery, h⟩ := bind_eq_ok.mp h
  rw [hversion, hschema, halerts, hdelivery] at h'
  obtain rfl := Except.ok.inj h
  obtain rfl := Except.ok.inj h'
  rfl

/-- The profile assembled from the documents is the one of the reviewed fields. -/
theorem broadProfileFrom_reviewed {value : Option String} {p : BroadProfile}
    (hload : loadProfileSections rows baselineDocument profileDocument = .ok (profileMeta,baselineName,s))
    (h : broadProfileFrom rows baselineDocument profileDocument value = .ok p) :
    broadProfile (p.reviewed s) value = .ok p.toFleetTelemetryProfile := by
  obtain ⟨_, _, s', version, _, _, hload', hversion, _, _, _⟩ := broadProfileFrom_ok h
  obtain rfl : s = s' := congrArg (fun t => t.2.2) (Except.ok.inj (hload.symm.trans hload'))
  rw [broadProfileFrom_eq hload hversion, mapError_eq_ok] at h
  have hfields := (assembleProfile_ok h).1
  have hsupports : ∀ minimum, versionAtLeast value minimum =
      .ok (decide (clientVersion minimum ≤ version)) := by
    intro minimum
    rw [versionAtLeast_eq, hversion]
    rfl
  unfold broadProfile
  rw [hsupports, hsupports]
  have heta : p.toFleetTelemetryProfile = { p.toFleetTelemetryProfile with fields := p.fields } := rfl
  rw [heta, hfields]
  unfold gated
  cases decide (clientVersion (1,2,0) ≤ version) <;> cases decide (clientVersion (1,3,0) ≤ version) <;>
    rfl

/-- The fields listed as capability-omitted, without the entries of configured fields whose
included fields are left out. -/
def BroadProfile.omittedFields (p : BroadProfile) : List Str :=
  p.capabilityOmissions.keys.filter (fun name => ∀ field ∈ p.fields.keys, name ≠ includeOmission field)

/-- Exactly one of three statements. -/
def OneOf (a b c : Prop) : Prop := (a ∧ ¬ b ∧ ¬ c) ∨ (¬ a ∧ b ∧ ¬ c) ∨ (¬ a ∧ ¬ b ∧ c)

instance {a b c : Prop} [Decidable a] [Decidable b] [Decidable c] : Decidable (OneOf a b c) :=
  inferInstanceAs (Decidable (_ ∨ _ ∨ _))

theorem mem_omittedFields {configured : Dict FleetTelemetryField} {p : BroadProfile}
    {supportsSelfDriving supportsIncludeFields : Bool}
    (hf : p.fields = (gated configured supportsSelfDriving supportsIncludeFields).1)
    (ho : p.capabilityOmissions = (gated configured supportsSelfDriving supportsIncludeFields).2)
    {name : Str} : name ∈ p.omittedFields ↔
      supportsSelfDriving = false ∧ name ∈ selfDrivingFields ∧ name ∈ configured.keys := by
  unfold BroadProfile.omittedFields
  rw [List.mem_filter, decide_eq_true_eq, hf, ho, gated_omissions, gated_fields, Dict.keys_mapValues]
  constructor
  · rintro ⟨h | ⟨_, e, he, _, hname⟩, hnone⟩
    · exact h
    · exact absurd hname (hnone e.1 (Dict.mem_keys_of_mem he))
  · intro h
    exact ⟨.inl h, fun field _ => selfDriving_ne_includeOmission h.2.1 field⟩

theorem profile_divides {value : Option String} {p : BroadProfile}
    (h : broadProfileFrom rows baselineDocument profileDocument value = .ok p) :
    ∀ name ∈ catalogNames rows,
      OneOf (name ∈ p.fields.keys) (name ∈ p.excludedFields.keys) (name ∈ p.omittedFields) := by
  intro name hn
  obtain ⟨_, _, s, _, supportsSelfDriving, supportsIncludeFields, hload, _, _, _, hassemble⟩ :=
    broadProfileFrom_ok h
  obtain ⟨hf, ho, hexcluded, _⟩ := assembleProfile_ok hassemble
  have hconfigured := (loadProfileSections_divided hload).configured_iff hn
  rw [← hexcluded] at hconfigured
  rw [mem_omittedFields hf ho, hf, gated_fields, Dict.keys_mapValues, mem_drivable, hconfigured]
  unfold OneOf
  by_cases hexcluded : name ∈ p.excludedFields.keys
  · simp [hexcluded]
  · cases supportsSelfDriving with
    | true => simp [hexcluded]
    | false =>
      by_cases hself : name ∈ selfDrivingFields
      · simp [hexcluded, hself]
      · simp [hexcluded, hself]

/-- A field of two clients' profiles, of which the second supports what the first does. -/
theorem profile_grows {value value' : Option String} {p p' : BroadProfile}
    {version version' : ClientVersion}
    (h : broadProfileFrom rows baselineDocument profileDocument value = .ok p)
    (h' : broadProfileFrom rows baselineDocument profileDocument value' = .ok p')
    (hv : parsedVersion value = .ok version) (hv' : parsedVersion value' = .ok version')
    (hle : version ≤ version') {name : Str} {field : FleetTelemetryField}
    (hfield : p.fields.get name = some field) :
    ∃ field', p'.fields.get name = some field' ∧
      field'.intervalSeconds = field.intervalSeconds ∧ field'.minimumDelta = field.minimumDelta ∧
      field'.resendIntervalSeconds = field.resendIntervalSeconds := by
  obtain ⟨_, _, s, v, selfDriving, includes, hload, hversion, hself, _, hassemble⟩ :=
    broadProfileFrom_ok h
  obtain ⟨_, _, s', v', selfDriving', includes', hload', hversion', hself', _, hassemble'⟩ :=
    broadProfileFrom_ok h'
  obtain rfl : s = s' := congrArg (fun t => t.2.2) (Except.ok.inj (hload.symm.trans hload'))
  obtain rfl := Except.ok.inj (hv.symm.trans hversion)
  obtain rfl := Except.ok.inj (hv'.symm.trans hversion')
  have hmore : selfDriving = true → selfDriving' = true :=
    fun hs => hself'.mpr ((hself.mp hs).trans hle)
  have hget : ∀ b b', (drivable s.configured b).get name = some b' → (b = true → selfDriving' = true) →
      (drivable s.configured selfDriving').get name = some b' := by
    intro b b' hb hsupports
    unfold drivable at hb ⊢
    cases b with
    | true =>
      rw [if_pos (hsupports rfl)]
      simpa using hb
    | false =>
      simp only [Bool.false_eq_true, if_false, Dict.get_drop] at hb
      split at hb
      · cases hb
      · rename_i hnot
        split
        · exact hb
        · rw [Dict.get_drop, if_neg hnot]
          exact hb
  rw [(assembleProfile_ok hassemble).1, gated_fields, Dict.get_mapValues] at hfield
  obtain ⟨reviewed, hreviewed, rfl⟩ := Option.map_eq_some_iff.mp hfield
  rw [(assembleProfile_ok hassemble').1, gated_fields, Dict.get_mapValues,
    hget _ _ hreviewed hmore]
  refine ⟨_, rfl, ?_⟩
  unfold withSupport
  cases includes <;> cases includes' <;> exact ⟨rfl,rfl,rfl⟩

/-- What holds of a profile and of the other profiles from the same documents. -/
structure ProfileLaws (rows : List CatalogRow) (baselineDocument profileDocument : Dict Toml)
    (version : ClientVersion) (p : BroadProfile) : Prop where
  partition : ∀ name ∈ catalogNames rows,
    OneOf (name ∈ p.fields.keys) (name ∈ p.excludedFields.keys) (name ∈ p.omittedFields)
  includes : version < clientVersion (1,3,0) → ∀ e ∈ p.fields, e.2.includeFields = []
  returns : ∀ value' version', parsedVersion value' = .ok version' →
    ∃ p', broadProfileFrom rows baselineDocument profileDocument value' = .ok p'
  grows : ∀ value' version' p', parsedVersion value' = .ok version' → version ≤ version' →
    broadProfileFrom rows baselineDocument profileDocument value' = .ok p' →
    ∀ name field, p.fields.get name = some field →
      ∃ field', p'.fields.get name = some field' ∧
        field'.intervalSeconds = field.intervalSeconds ∧
        field'.minimumDelta = field.minimumDelta ∧
        field'.resendIntervalSeconds = field.resendIntervalSeconds

/-- A profile divides the catalog and grows with the version of the client. -/
theorem broadProfile_laws {value : Option String} {p : BroadProfile} {version : ClientVersion}
    (h : broadProfileFrom rows baselineDocument profileDocument value = .ok p)
    (hv : parsedVersion value = .ok version) :
    ProfileLaws rows baselineDocument profileDocument version p := by
  constructor
  case partition => exact profile_divides h
  case includes =>
    intro hlt e he
    obtain ⟨_, _, s, v, _, includes, _, hversion, _, hinclude, hassemble⟩ := broadProfileFrom_ok h
    obtain rfl := Except.ok.inj (hv.symm.trans hversion)
    obtain rfl : includes = false := by
      by_contra hi
      exact absurd (hinclude.mp (by simpa using hi)) (not_le_of_gt hlt)
    rw [(assembleProfile_ok hassemble).1, gated_fields] at he
    obtain ⟨reviewed, _, rfl⟩ := List.mem_map.mp he
    rfl
  case returns =>
    intro value' version' hv'
    obtain ⟨_, _, s, _, _, _, hload, _, _, _, hassemble⟩ := broadProfileFrom_ok h
    rw [broadProfileFrom_eq hload hv']
    obtain ⟨p', hp'⟩ := (assembleProfile_ok hassemble).2.2.2
      (decide (clientVersion (1,2,0) ≤ version')) (decide (clientVersion (1,3,0) ≤ version'))
    exact ⟨p', mapError_eq_ok.mpr hp'⟩
  case grows =>
    intro value' version' p' hv' hle h' name field hfield
    exact profile_grows h h' hv hv' hle hfield

end Profiles

section Dotted

/-- Names of a catalog that has a field named like another one's left-out include. -/
def cellOf : Nat → String
  | 0 => "A"
  | 1 => "A.include_fields"
  | n + 2 => String.singleton (Char.ofNat (256 + n))

def nameOf : Nat → Str
  | 0 => str "A"
  | 1 => includeOmission (str "A")
  | n + 2 => [Fin.ofNat _ (256 + n)]

def dottedRows : List CatalogRow :=
  (List.range 239).map (fun n => ⟨cellOf n,"Charging","real","A field."⟩)

def dottedSpec (n : Nat) : Toml :=
  .table ((str "interval_seconds",.int 1) ::
    (if n = 0 then [(str "include_fields",.arr [.str (cellOf 2)])] else []))

def dottedField (n : Nat) : FleetTelemetryField :=
  { intervalSeconds := 1, includeFields := if n = 0 then [nameOf 2] else [] }

def dottedMeta : Dict Toml :=
  [(str "name",.str "baseline"),(str "baseline",.str "baseline"),(str "version",.str "1"),
   (str "schema_version",.str "1"),(str "delivery_policy",.str "latest"),
   (str "alert_types",.arr [.str "service"])]

def dottedBaseline : Dict Toml :=
  [(str "baseline",.table dottedMeta),
   (str "fields",.table ((List.range 93).map (fun n => (nameOf n,dottedSpec n))))]

def dottedProfile : Dict Toml :=
  [(str "profile",.table dottedMeta),
   (str "overrides",.table []),(str "additions",.table []),(str "removals",.table []),
   (str "omissions",.table ((List.range' 93 146).map (fun n => (nameOf n,.str "Not needed."))))]

def dottedDefinitions : List TelemetryFieldDefinition :=
  (List.range 239).map (fun n => ⟨nameOf n,"Charging","real","A field."⟩)

def dottedSections : ProfileSections :=
  { baseline := (List.range 93).map (fun n => (nameOf n,dottedField n))
    overrides := []
    additions := []
    removals := []
    omissions := (List.range' 93 146).map (fun n => (nameOf n,"Not needed.")) }

/-- A text of one character that is not a space. -/
theorem strip_singleton {c : Char} (h : Identity.isSpace c = false) :
    Identity.strip (String.singleton c) = String.singleton c := by
  unfold Identity.strip stripOf
  simp [h]

theorem nameOf_cell : ∀ n < 239, str (Identity.strip (cellOf n)) = nameOf n
  | 0, _ => by decide
  | 1, _ => by decide
  | n + 2, hn => by
    have hval : (Char.ofNat (256 + n)).toNat = 256 + n := by
      have hvalid : (256 + n).isValidChar := .inl (by omega)
      unfold Char.ofNat
      rw [dif_pos hvalid]
      rfl
    have hspace : Identity.isSpace (Char.ofNat (256 + n)) = false := by
      have hcode : (chr (Char.ofNat (256 + n))).val = 256 + n := by
        unfold chr
        rw [hval, Fin.val_ofNat]
        omega
      unfold Identity.isSpace Python.isSpace wideSpaces
      rw [hcode, decide_eq_false_iff_not]
      simp only [List.mem_cons, List.not_mem_nil, or_false]
      omega
    unfold cellOf nameOf
    rw [strip_singleton hspace]
    simp [str, hval]

theorem nameOf_letter {n : Nat} (hn : n < 239) : nameOf (n + 2) ≠ nameOf 0 ∧ nameOf (n + 2) ≠ nameOf 1 := by
  constructor
  · intro h
    have hfirst : nameOf 0 = [65] := by
      decide
    rw [hfirst] at h
    unfold nameOf at h
    have hval := congrArg Fin.val (List.cons.inj h).1
    simp only [Fin.ofNat, Nat.mod_eq_of_lt (show 256 + n < 1114112 by omega)] at hval
    have hsixty : (65 : CodePoint).val = 65 := rfl
    omega
  · intro h
    have hlength : (nameOf 1).length = 16 := by
      decide
    rw [← h] at hlength
    simp [nameOf] at hlength

theorem nameOf_inj {m n : Nat} (hm : m < 239) (hn : n < 239) (h : nameOf m = nameOf n) : m = n := by
  have hfirst : nameOf 0 ≠ nameOf 1 := by
    decide
  match m, n with
  | 0, 0 => rfl
  | 1, 1 => rfl
  | 0, 1 => exact absurd h hfirst
  | 1, 0 => exact absurd h.symm hfirst
  | 0, n + 2 => exact absurd h.symm (nameOf_letter (by omega)).1
  | n + 2, 0 => exact absurd h (nameOf_letter (by omega)).1
  | 1, n + 2 => exact absurd h.symm (nameOf_letter (by omega)).2
  | n + 2, 1 => exact absurd h (nameOf_letter (by omega)).2
  | m + 2, n + 2 =>
    unfold nameOf at h
    have hval := congrArg Fin.val (List.cons.inj h).1
    simp only [Fin.ofNat, Nat.mod_eq_of_lt (show 256 + m < 1114112 by omega),
      Nat.mod_eq_of_lt (show 256 + n < 1114112 by omega)] at hval
    omega

theorem names_nodup {start count : Nat} (h : start + count ≤ 239) :
    ((List.range' start count).map nameOf).Nodup := by
  refine List.Nodup.map_on ?_ List.nodup_range'
  intro m hm n hn hsame
  rw [List.mem_range'_1] at hm hn
  exact nameOf_inj (by omega) (by omega) hsame

theorem dotted_definitions : dottedRows.map CatalogRow.definition = dottedDefinitions := by
  have hcategory : Identity.strip "Charging" = "Charging" := by
    decide
  have htype : Identity.strip "real" = "real" := by
    decide
  have hdescription : Identity.strip "A field." = "A field." := by
    decide
  unfold dottedRows dottedDefinitions
  rw [List.map_map]
  apply List.map_congr_left
  intro n hn
  rw [List.mem_range] at hn
  simp only [Function.comp_apply, CatalogRow.definition, nameOf_cell n hn, hcategory, htype,
    hdescription]

theorem dotted_catalog : loadFieldCatalog dottedRows = .ok dottedDefinitions := by
  unfold loadFieldCatalog
  rw [dotted_definitions]
  have hnodup : (dottedDefinitions.map TelemetryFieldDefinition.name).Nodup := by
    unfold dottedDefinitions
    rw [List.map_map, List.range_eq_range']
    exact names_nodup (by omega)
  have hlength : dottedDefinitions.length = 239 := by
    simp [dottedDefinitions]
  dsimp only
  rw [hnodup.dedup, List.length_map, hlength, if_neg (by simp)]

/-- The catalog of the definitions, by name. -/
def dottedCatalog : Dict TelemetryFieldDefinition :=
  dottedDefinitions.map (fun definition => (definition.name,definition))

theorem mem_dottedCatalog {n : Nat} (hn : n < 239) : nameOf n ∈ dottedCatalog.keys := by
  unfold dottedCatalog dottedDefinitions Dict.keys
  simp only [List.map_map, List.mem_map, List.mem_range, Function.comp_apply]
  exact ⟨n, hn, rfl⟩

theorem dotted_interval (n : Nat) (spec : Dict Toml) :
    fieldInterval (nameOf n) ((str "interval_seconds",.int 1) :: spec) = .ok 1 := by
  simp [fieldInterval, Dict.get]

theorem dotted_includes {n : Nat} :
    fieldIncludes dottedCatalog (nameOf n) ((str "interval_seconds",.int 1) ::
      (if n = 0 then [(str "include_fields",.arr [.str (cellOf 2)])] else [])) =
        .ok (dottedField n).includeFields := by
  have hkey : str "interval_seconds" ≠ str "include_fields" := by
    decide
  have hcell : str (cellOf 2) = nameOf 2 := by
    decide
  have hfirst : nameOf 0 ≠ nameOf 2 ∧ permitsInclude (nameOf 0) (nameOf 2) = true := by
    decide
  have hmem : nameOf 2 ∈ dottedCatalog.keys := mem_dottedCatalog (by omega)
  by_cases hn : n = 0
  · subst hn
    simp [fieldIncludes, Dict.get, hkey, Toml.text?, hcell, hmem, hfirst, dottedField]
  · simp [fieldIncludes, Dict.get, hkey, hn, dottedField]

theorem dotted_field {n : Nat} (hn : n < 239) :
    loadField dottedCatalog false (nameOf n) (dottedSpec n) = .ok (dottedField n,"") := by
  have hkeys : str "interval_seconds" ≠ str "minimum_delta" ∧
      str "include_fields" ≠ str "minimum_delta" := by
    decide
  have hdelta : fieldMinimumDelta dottedCatalog (nameOf n) ((str "interval_seconds",.int 1) ::
      (if n = 0 then [(str "include_fields",.arr [.str (cellOf 2)])] else [])) = .ok none := by
    by_cases h : n = 0
    · simp [fieldMinimumDelta, Dict.get, hkeys, h]
    · simp [fieldMinimumDelta, Dict.get, hkeys, h]
  have hknown : (Dict.keys ((str "interval_seconds",.int 1) ::
      (if n = 0 then [(str "include_fields",Toml.arr [.str (cellOf 2)])] else []))).filter
        (fun key => key ∉ [str "include_fields",str "interval_seconds",str "minimum_delta"] ++
          (if false = true then [str "rationale"] else [])) = [] := by
    by_cases h : n = 0
    · simp [Dict.keys, h]
    · simp [Dict.keys, h]
  unfold loadField dottedSpec
  rw [if_neg (not_not.mpr (mem_dottedCatalog hn))]
  dsimp only
  rw [hknown, if_neg (by simp), dotted_interval, hdelta, dotted_includes]
  rfl

theorem dotted_reason {n : Nat} (hn : n < 239) :
    loadReason dottedCatalog (nameOf n) (.str "Not needed.") = .ok "Not needed." := by
  have hreason : Identity.strip "Not needed." ≠ "" := by
    decide
  unfold loadReason
  rw [if_neg (not_not.mpr (mem_dottedCatalog hn))]
  dsimp only
  rw [if_neg hreason]

theorem dotted_tables :
    requireTable dottedBaseline "baseline" = .ok dottedMeta ∧
    requireTable dottedBaseline "fields" =
      .ok ((List.range 93).map (fun n => (nameOf n,dottedSpec n))) ∧
    requireTable dottedProfile "profile" = .ok dottedMeta ∧
    requireTable dottedProfile "overrides" = .ok [] ∧
    requireTable dottedProfile "additions" = .ok [] ∧
    requireTable dottedProfile "removals" = .ok [] ∧
    requireTable dottedProfile "omissions" =
      .ok ((List.range' 93 146).map (fun n => (nameOf n,.str "Not needed."))) := by
  have hnames : (["baseline","fields","profile","overrides","additions","removals","omissions"].map
      str).Nodup := by
    decide
  simp only [List.map_cons, List.map_nil, List.nodup_cons, List.mem_cons, List.not_mem_nil,
    or_false, not_or] at hnames
  simp [requireTable, dottedBaseline, dottedProfile, Dict.get, hnames]

theorem dotted_fields : Dict.traverse (loadField dottedCatalog false)
    ((List.range 93).map (fun n => (nameOf n,dottedSpec n))) =
      .ok ((List.range 93).map (fun n => (nameOf n,(dottedField n,"")))) := by
  apply Dict.traverse_map
  intro n hn
  rw [List.mem_range] at hn
  exact dotted_field (by omega)

theorem dotted_omitted : Dict.traverse (loadReason dottedCatalog)
    ((List.range' 93 146).map (fun n => (nameOf n,.str "Not needed."))) =
      .ok ((List.range' 93 146).map (fun n => (nameOf n,"Not needed."))) := by
  apply Dict.traverse_map
  intro n hn
  rw [List.mem_range'_1] at hn
  exact dotted_reason (by omega)

theorem dotted_sections :
    loadSections dottedBaseline dottedProfile dottedCatalog = .ok dottedSections := by
  obtain ⟨_, hfields, _, hoverrides, hadditions, hremovals, homissions⟩ := dotted_tables
  unfold loadSections
  refine bind_eq_ok.mpr ⟨_, bind_eq_ok.mpr ⟨_, hfields, dotted_fields⟩, ?_⟩
  refine bind_eq_ok.mpr ⟨_, bind_eq_ok.mpr ⟨_, hoverrides, rfl⟩, ?_⟩
  refine bind_eq_ok.mpr ⟨_, bind_eq_ok.mpr ⟨_, hadditions, rfl⟩, ?_⟩
  refine bind_eq_ok.mpr ⟨_, bind_eq_ok.mpr ⟨_, hremovals, rfl⟩, ?_⟩
  refine bind_eq_ok.mpr ⟨_, bind_eq_ok.mpr ⟨_, homissions, dotted_omitted⟩, ?_⟩
  rw [List.map_map]
  rfl

theorem nameOf_mem {n start count : Nat} (hn : n < 239) (h : start + count ≤ 239) :
    nameOf n ∈ (List.range' start count).map nameOf ↔ start ≤ n ∧ n < start + count := by
  rw [List.mem_map]
  constructor
  · intro hm
    obtain ⟨m, hm, hsame⟩ := hm
    rw [List.mem_range'_1] at hm
    obtain rfl := nameOf_inj (by omega) hn hsame
    exact hm
  · intro hm
    exact ⟨n, List.mem_range'_1.mpr hm, rfl⟩

theorem baseline_keys : Dict.keys dottedSections.baseline = (List.range' 0 93).map nameOf := by
  rw [← List.range_eq_range']
  simp [dottedSections, Dict.keys, Function.comp_def]

theorem dotted_valid : validateDeclarativePartition dottedCatalog dottedSections = .ok () := by
  have homissions : Dict.keys dottedSections.omissions = (List.range' 93 146).map nameOf := by
    simp [dottedSections, Dict.keys, Function.comp_def]
  have hcatalog : Dict.keys dottedCatalog = (List.range' 0 239).map nameOf := by
    rw [← List.range_eq_range']
    simp [dottedCatalog, dottedDefinitions, Dict.keys, Function.comp_def]
  have hcount : ((List.range' 0 93).map nameOf).dedup.length = 93 := by
    rw [(names_nodup (by omega)).dedup, List.length_map, List.length_range']
  have hmeets : meets ((List.range' 93 146).map nameOf) ((List.range' 0 93).map nameOf) = false := by
    rw [← Bool.not_eq_true]
    intro hm
    unfold meets at hm
    obtain ⟨name, hname, hbase⟩ := List.any_eq_true.mp hm
    obtain ⟨n, hn, rfl⟩ := List.mem_map.mp hname
    rw [List.mem_range'_1] at hn
    rw [decide_eq_true_eq, nameOf_mem (by omega) (by omega)] at hbase
    omega
  -- the omitted names are those outside the baseline
  have hrest : ∀ name, name ∈ ((List.range' 0 239).map nameOf).filter
      (fun name => name ∉ (List.range' 0 93).map nameOf) ↔ name ∈ (List.range' 93 146).map nameOf := by
    intro name
    rw [List.mem_filter, decide_eq_true_eq]
    constructor
    · intro hname
      obtain ⟨hname, hbase⟩ := hname
      obtain ⟨n, hn, rfl⟩ := List.mem_map.mp hname
      rw [List.mem_range'_1] at hn
      rw [nameOf_mem (by omega) (by omega)] at hbase ⊢
      omega
    · intro hname
      obtain ⟨n, hn, rfl⟩ := List.mem_map.mp hname
      rw [List.mem_range'_1] at hn
      rw [nameOf_mem (by omega) (by omega), nameOf_mem (by omega) (by omega)]
      omega
  unfold validateDeclarativePartition
  dsimp only
  rw [baseline_keys, homissions, hcatalog, hcount, hmeets]
  have hempty : dottedSections.overrides.keys = [] ∧ dottedSections.removals.keys = [] ∧
      dottedSections.additions.keys = [] := ⟨rfl,rfl,rfl⟩
  rw [hempty.1, hempty.2.1, hempty.2.2]
  have hdecided : ¬ (¬ [] ++ (List.range' 93 146).map nameOf ⊆ ((List.range' 0 239).map nameOf).filter
      (fun name => name ∉ (List.range' 0 93).map nameOf) ∨
      ¬ ((List.range' 0 239).map nameOf).filter (fun name => name ∉ (List.range' 0 93).map nameOf) ⊆
        [] ++ (List.range' 93 146).map nameOf) := by
    rw [List.nil_append, not_or, not_not, not_not]
    exact ⟨fun name hname => (hrest name).mpr hname, fun name hname => (hrest name).mp hname⟩
  rw [if_neg hdecided]
  simp [meets]

theorem dotted_strings :
    requireString dottedMeta "name" = .ok "baseline" ∧
    requireString dottedMeta "baseline" = .ok "baseline" ∧
    requireString dottedMeta "version" = .ok "1" ∧
    requireString dottedMeta "schema_version" = .ok "1" ∧
    requireString dottedMeta "delivery_policy" = .ok "latest" := by
  decide

theorem dotted_alerts : requireAlertTypes dottedMeta = .ok ["service"] := by
  decide

theorem dotted_requires : requireBaseline dottedMeta dottedMeta = .ok "baseline" := by
  unfold requireBaseline
  refine bind_eq_ok.mpr ⟨"baseline", dotted_strings.1, ?_⟩
  refine bind_eq_ok.mpr ⟨"baseline", dotted_strings.2.1, ?_⟩
  rw [if_neg (not_not.mpr rfl)]
  refine bind_eq_ok.mpr ⟨"latest", dotted_strings.2.2.2.2, ?_⟩
  refine bind_eq_ok.mpr ⟨"latest", dotted_strings.2.2.2.2, ?_⟩
  rw [if_neg (not_not.mpr rfl)]
  refine bind_eq_ok.mpr ⟨["service"], dotted_alerts, ?_⟩
  refine bind_eq_ok.mpr ⟨["service"], dotted_alerts, ?_⟩
  rw [if_neg (not_not.mpr rfl)]
  rfl

theorem dotted_loads :
    loadProfileSections dottedRows dottedBaseline dottedProfile =
      .ok (dottedMeta,"baseline",dottedSections) := by
  unfold loadProfileSections
  refine bind_eq_ok.mpr ⟨dottedDefinitions, dotted_catalog, ?_⟩
  refine bind_eq_ok.mpr ⟨dottedMeta, dotted_tables.1, ?_⟩
  refine bind_eq_ok.mpr ⟨dottedMeta, dotted_tables.2.2.1, ?_⟩
  refine bind_eq_ok.mpr ⟨"baseline", dotted_requires, ?_⟩
  refine bind_eq_ok.mpr ⟨dottedSections, dotted_sections, ?_⟩
  exact bind_eq_ok.mpr ⟨(), dotted_valid, rfl⟩

theorem dotted_assembles (supportsSelfDriving supportsIncludeFields : Bool) :
    ∃ p, assembleProfile dottedMeta "baseline" dottedSections supportsSelfDriving
      supportsIncludeFields = .ok p := by
  unfold assembleProfile
  rw [dotted_strings.2.2.1, dotted_strings.2.2.2.1, dotted_strings.2.2.2.2, dotted_alerts]
  exact ⟨_, rfl⟩

theorem dotted_profile {value : Option String} {version : ClientVersion}
    (hv : parsedVersion value = .ok version) :
    ∃ p, broadProfileFrom dottedRows dottedBaseline dottedProfile value = .ok p := by
  rw [broadProfileFrom_eq dotted_loads hv]
  obtain ⟨p, hp⟩ := dotted_assembles (decide (clientVersion (1,2,0) ≤ version))
    (decide (clientVersion (1,3,0) ≤ version))
  exact ⟨p, mapError_eq_ok.mpr hp⟩

section Varied

/-- The documents with an override, an addition and a removal. -/
def variedSpec : Toml :=
  .table [(str "interval_seconds",.int 5),(str "rationale",.str "Needed.")]

def variedField : FleetTelemetryField := { intervalSeconds := 5 }

def variedProfile : Dict Toml :=
  [(str "profile",.table dottedMeta),
   (str "overrides",.table [(nameOf 3,variedSpec)]),
   (str "additions",.table [(nameOf 93,variedSpec)]),
   (str "removals",.table [(nameOf 4,.str "Not needed.")]),
   (str "omissions",.table ((List.range' 94 145).map (fun n => (nameOf n,.str "Not needed."))))]

def variedSections : ProfileSections :=
  { dottedSections with
    overrides := [(nameOf 3,(variedField,"Needed."))]
    additions := [(nameOf 93,(variedField,"Needed."))]
    removals := [(nameOf 4,"Not needed.")]
    omissions := (List.range' 94 145).map (fun n => (nameOf n,"Not needed.")) }

theorem varied_tables :
    requireTable variedProfile "profile" = .ok dottedMeta ∧
    requireTable variedProfile "overrides" = .ok [(nameOf 3,variedSpec)] ∧
    requireTable variedProfile "additions" = .ok [(nameOf 93,variedSpec)] ∧
    requireTable variedProfile "removals" = .ok [(nameOf 4,.str "Not needed.")] ∧
    requireTable variedProfile "omissions" =
      .ok ((List.range' 94 145).map (fun n => (nameOf n,.str "Not needed."))) := by
  have hnames : (["profile","overrides","additions","removals","omissions"].map str).Nodup := by
    decide
  simp only [List.map_cons, List.map_nil, List.nodup_cons, List.mem_cons, List.not_mem_nil,
    or_false, not_or] at hnames
  simp [requireTable, variedProfile, Dict.get, hnames]

theorem varied_field {n : Nat} (hn : n < 239) :
    loadField dottedCatalog true (nameOf n) variedSpec = .ok (variedField,"Needed.") := by
  have hkeys : (["interval_seconds","rationale","minimum_delta","include_fields"].map str).Nodup := by
    decide
  simp only [List.map_cons, List.map_nil, List.nodup_cons, List.mem_cons, List.not_mem_nil,
    or_false, not_or] at hkeys
  have hrationale : Identity.strip "Needed." ≠ "" := by
    decide
  unfold loadField variedSpec
  rw [if_neg (not_not.mpr (mem_dottedCatalog hn))]
  simp [Dict.keys, fieldInterval, fieldMinimumDelta, fieldIncludes, requireString, Dict.get, hkeys,
    hrationale, variedField, bind, Except.bind, pure, Except.pure]

theorem varied_sections :
    loadSections dottedBaseline variedProfile dottedCatalog = .ok variedSections := by
  obtain ⟨_, hfields, _⟩ := dotted_tables
  obtain ⟨_, hoverrides, hadditions, hremovals, homissions⟩ := varied_tables
  have hfield : ∀ n < 239, Dict.traverse (loadField dottedCatalog true) [(nameOf n,variedSpec)] =
      .ok [(nameOf n,(variedField,"Needed."))] := by
    intro n hn
    simp only [Dict.traverse, varied_field hn]
  have hremoved : Dict.traverse (loadReason dottedCatalog) [(nameOf 4,.str "Not needed.")] =
      .ok [(nameOf 4,"Not needed.")] := by
    simp only [Dict.traverse, dotted_reason (show 4 < 239 by omega)]
  have homitted : Dict.traverse (loadReason dottedCatalog)
      ((List.range' 94 145).map (fun n => (nameOf n,.str "Not needed."))) =
        .ok ((List.range' 94 145).map (fun n => (nameOf n,"Not needed."))) := by
    apply Dict.traverse_map
    intro n hn
    rw [List.mem_range'_1] at hn
    exact dotted_reason (by omega)
  unfold loadSections
  refine bind_eq_ok.mpr ⟨_, bind_eq_ok.mpr ⟨_, hfields, dotted_fields⟩, ?_⟩
  refine bind_eq_ok.mpr ⟨_, bind_eq_ok.mpr ⟨_, hoverrides, hfield 3 (by omega)⟩, ?_⟩
  refine bind_eq_ok.mpr ⟨_, bind_eq_ok.mpr ⟨_, hadditions, hfield 93 (by omega)⟩, ?_⟩
  refine bind_eq_ok.mpr ⟨_, bind_eq_ok.mpr ⟨_, hremovals, hremoved⟩, ?_⟩
  refine bind_eq_ok.mpr ⟨_, bind_eq_ok.mpr ⟨_, homissions, homitted⟩, ?_⟩
  rw [List.map_map]
  rfl

theorem varied_valid : validateDeclarativePartition dottedCatalog variedSections = .ok () := by
  have hbase : ∀ n < 93, nameOf n ∈ dottedSections.baseline.keys := by
    intro n hn
    rw [baseline_keys, nameOf_mem (by omega) (by omega)]
    omega
  have homitted : variedSections.omissions.keys = (List.range' 94 145).map nameOf := by
    simp [variedSections, Dict.keys, Function.comp_def]
  -- the addition is one of the fields that the other profile omits
  have hdecided : variedSections.additions.keys ++ variedSections.omissions.keys =
      dottedSections.additions.keys ++ dottedSections.omissions.keys := by
    have hall : dottedSections.omissions.keys = (List.range' 93 146).map nameOf := by
      simp [dottedSections, Dict.keys, Function.comp_def]
    rw [hall, homitted, List.range'_succ]
    rfl
  have hold := dotted_valid
  unfold validateDeclarativePartition at hold ⊢
  dsimp only at hold ⊢
  repeat (split at hold; · cases hold)
  rename_i hcount _ _ _ _ homissions _ hevery
  have hsame : variedSections.baseline = dottedSections.baseline := rfl
  rw [hsame, if_neg hcount, if_neg ?overrides, if_neg ?removals, if_neg (by decide), if_neg ?additions,
    if_neg ?omissions, if_neg ?apart, hdecided, if_neg hevery]
  case overrides =>
    rw [not_not]
    intro name hname
    obtain rfl := List.mem_singleton.mp hname
    exact hbase 3 (by omega)
  case removals =>
    rw [not_not]
    intro name hname
    obtain rfl := List.mem_singleton.mp hname
    exact hbase 4 (by omega)
  case additions =>
    intro hmeets
    obtain ⟨name, hname, hmem⟩ := List.any_eq_true.mp hmeets
    obtain rfl := List.mem_singleton.mp hname
    rw [decide_eq_true_eq] at hmem
    have hbaseline : nameOf 93 ∈ dottedSections.baseline.keys := hmem
    rw [baseline_keys, nameOf_mem (by omega) (by omega)] at hbaseline
    omega
  case omissions =>
    intro hmeets
    obtain ⟨name, hname, hmem⟩ := List.any_eq_true.mp hmeets
    refine homissions (List.any_eq_true.mpr ⟨name, ?_, hmem⟩)
    have hname' := List.mem_append_right variedSections.additions.keys hname
    rw [hdecided] at hname'
    exact hname'
  case apart =>
    intro hmeets
    obtain ⟨name, hname, hmem⟩ := List.any_eq_true.mp hmeets
    obtain rfl := List.mem_singleton.mp hname
    rw [decide_eq_true_eq, homitted, nameOf_mem (by omega) (by omega)] at hmem
    omega

theorem varied_loads :
    loadProfileSections dottedRows dottedBaseline variedProfile =
      .ok (dottedMeta,"baseline",variedSections) := by
  unfold loadProfileSections
  refine bind_eq_ok.mpr ⟨dottedDefinitions, dotted_catalog, ?_⟩
  refine bind_eq_ok.mpr ⟨dottedMeta, dotted_tables.1, ?_⟩
  refine bind_eq_ok.mpr ⟨dottedMeta, varied_tables.1, ?_⟩
  refine bind_eq_ok.mpr ⟨"baseline", dotted_requires, ?_⟩
  refine bind_eq_ok.mpr ⟨variedSections, varied_sections, ?_⟩
  exact bind_eq_ok.mpr ⟨(), varied_valid, rfl⟩

theorem broadProfile_laws_varied :
    ∃ p, broadProfileFrom dottedRows dottedBaseline variedProfile (some "v1.2") = .ok p ∧
      ProfileLaws dottedRows dottedBaseline variedProfile (clientVersion (1,2,0)) p := by
  have hv : parsedVersion (some "v1.2") = .ok (clientVersion (1,2,0)) := by
    decide
  have hp : ∃ p, broadProfileFrom dottedRows dottedBaseline variedProfile (some "v1.2") = .ok p := by
    rw [broadProfileFrom_eq varied_loads hv]
    unfold assembleProfile
    rw [dotted_strings.2.2.1, dotted_strings.2.2.2.1, dotted_strings.2.2.2.2, dotted_alerts]
    exact ⟨_, rfl⟩
  obtain ⟨p, hp⟩ := hp
  exact ⟨p, hp, broadProfile_laws hp hv⟩

end Varied

/-- A field that is configured, and named like the left-out include of another. -/
theorem dotted_not_partitioned :
    ¬ ∀ rows baselineDocument profileDocument value p,
      broadProfileFrom rows baselineDocument profileDocument value = .ok p →
      ∀ name ∈ catalogNames rows, OneOf (name ∈ p.fields.keys) (name ∈ p.excludedFields.keys)
        (name ∈ p.capabilityOmissions.keys) := by
  intro hall
  obtain ⟨p, hp⟩ := dotted_profile (show parsedVersion none = .ok ⊥ from rfl)
  have hcatalog : nameOf 1 ∈ catalogNames dottedRows := by
    have hnames : catalogNames dottedRows = dottedDefinitions.map TelemetryFieldDefinition.name := by
      rw [← dotted_definitions, List.map_map]
      rfl
    rw [hnames]
    simp [dottedDefinitions]
    exact ⟨1, by omega, rfl⟩
  have hone := hall _ _ _ _ p hp (nameOf 1) hcatalog
  obtain ⟨_, _, s, version, supportsSelfDriving, supportsIncludeFields, hload, hversion, _,
    hinclude, hassemble⟩ := broadProfileFrom_ok hp
  obtain rfl : dottedSections = s := congrArg (fun t => t.2.2) (Except.ok.inj (dotted_loads.symm.trans hload))
  obtain rfl : ⊥ = version := Except.ok.inj hversion
  obtain rfl : supportsIncludeFields = false := by
    by_contra hi
    exact clientVersion_ne_bot _ (le_bot_iff.mp (hinclude.mp (by simpa using hi)))
  obtain ⟨hf, ho, _⟩ := assembleProfile_ok hassemble
  have hself : nameOf 1 ∉ selfDrivingFields :=
    fun h => selfDriving_ne_includeOmission h (str "A") rfl
  have hzero : nameOf 0 ∉ selfDrivingFields := by
    decide
  have hconfigured : dottedSections.configured = dottedSections.baseline := by
    unfold ProfileSections.configured Dict.drop
    exact List.filter_eq_self.mpr (fun e _ => by simp [dottedSections, Dict.keys])
  have hbaseline : ∀ n < 93, (nameOf n,dottedField n) ∈ dottedSections.baseline := by
    intro n hn
    exact List.mem_map.mpr ⟨n, List.mem_range.mpr hn, rfl⟩
  have hfield : nameOf 1 ∈ p.fields.keys := by
    rw [hf, gated_fields, Dict.keys_mapValues, mem_drivable, hconfigured]
    exact ⟨Dict.mem_keys_of_mem (hbaseline 1 (by omega)), .inr hself⟩
  have homitted : nameOf 1 ∈ p.capabilityOmissions.keys := by
    rw [ho, gated_omissions, hconfigured]
    refine .inr ⟨rfl, (nameOf 0,dottedField 0), ?_, by simp [dottedField], rfl⟩
    unfold drivable Dict.drop
    split
    · exact hbaseline 0 (by omega)
    · rw [List.mem_filter]
      exact ⟨hbaseline 0 (by omega), by simpa using hzero⟩
  rcases hone with h | h | h
  · exact h.2.2 homitted
  · exact h.1 hfield
  · exact h.1 hfield

end Dotted

end Woodhouse.Telemetry
