import Woodhouse.Python.DictPatches
import Woodhouse.Telemetry.Partition

namespace Woodhouse.Telemetry
open Python
open Gateway (Exc)

/-- The targets of a profile's included fields are fields of the profile. -/
def IncludesConfigured (p : BroadProfile) : Prop :=
  ∀ entry ∈ p.fields, ∀ target ∈ entry.2.includeFields, target ∈ p.fields.keys

/-- A decoded TOML table has no key twice. -/
def TablesDistinct (document : Dict Toml) : Prop :=
  ∀ key entries, requireTable document key = .ok entries → entries.keys.Nodup

/-- A field that the documents keep, with the settings that count: an addition, an override, or
a baseline field that is neither removed nor overridden. -/
def ProfileSections.Kept (s : ProfileSections) (name : Str) (field : FleetTelemetryField) : Prop :=
  (∃ rationale, (name,(field,rationale)) ∈ s.additions) ∨
  (∃ rationale, (name,(field,rationale)) ∈ s.overrides) ∨
  ((name,field) ∈ s.baseline ∧ name ∉ s.removals.keys ∧ name ∉ s.overrides.keys)

/-- No field that the documents keep includes one that they leave out. -/
def ProfileSections.IncludesKept (s : ProfileSections) : Prop :=
  ∀ name field, s.Kept name field → ∀ target ∈ field.includeFields,
    target ∉ s.omissions.keys ∧ target ∉ s.removals.keys

section Sections
variable {catalog : Dict TelemetryFieldDefinition} {document : Dict Toml} {s : ProfileSections}

theorem fieldIncludes_known {name : Str} {spec : Dict Toml} {includeFields : List Str}
    (h : fieldIncludes catalog name spec = .ok includeFields) :
    ∀ target ∈ includeFields, target ∈ catalog.keys := by
  unfold fieldIncludes at h
  split at h
  · split at h
    · cases h
    · dsimp only at h
      split at h
      · cases h
      · split at h
        · cases h
        · rename_i hknown
          split at h
          · obtain rfl := Except.ok.inj h
            intro target ht
            have hall := (not_or.mp hknown).1
            simp only [List.any_eq_true,decide_eq_true_eq,not_exists,not_and,not_not] at hall
            exact hall target ht
          · cases h
  · cases h

theorem loadField_known {requireRationale : Bool} {name : Str} {raw : Toml}
    {field : FleetTelemetryField × String} (h : loadField catalog requireRationale name raw = .ok field) :
    ∀ target ∈ field.1.includeFields, target ∈ catalog.keys := by
  unfold loadField at h
  split at h
  · cases h
  · split at h
    · rename_i spec
      -- the keys that are not allowed come before the settings
      have hsettings : ∀ {unknown : List Str} {e : ProfileError}
          {settings : Except ProfileError (FleetTelemetryField × String)},
          (if unknown ≠ [] then throw e else settings) = .ok field → settings = .ok field := by
        intro unknown e settings h
        split at h
        · cases h
        · exact h
      have h := hsettings h
      obtain ⟨_,_,h⟩ := bind_eq_ok.mp h
      obtain ⟨_,_,h⟩ := bind_eq_ok.mp h
      obtain ⟨includeFields,hincludes,h⟩ := bind_eq_ok.mp h
      dsimp only at h
      split at h
      · obtain ⟨_,_,h⟩ := bind_eq_ok.mp h
        obtain rfl := Except.ok.inj h
        exact fieldIncludes_known hincludes
      · obtain ⟨_,_,h⟩ := bind_eq_ok.mp h
        obtain rfl := Except.ok.inj h
        exact fieldIncludes_known hincludes
    · cases h

/-- A loaded field section has the keys of its table, and includes only fields of the catalog. -/
theorem loadFieldSection_ok {sectionName : String} {requireRationale : Bool}
    {fields : Dict (FleetTelemetryField × String)} (hdistinct : TablesDistinct document)
    (h : loadFieldSection catalog document sectionName requireRationale = .ok fields) :
    fields.keys.Nodup ∧ ∀ e ∈ fields, ∀ target ∈ e.2.1.includeFields, target ∈ catalog.keys := by
  unfold loadFieldSection at h
  obtain ⟨values,hvalues,h⟩ := bind_eq_ok.mp h
  constructor
  · rw [Dict.traverse_keys h]
    exact hdistinct sectionName values hvalues
  · intro e he
    obtain ⟨raw,_,hfield⟩ := Dict.traverse_mem h he
    exact loadField_known hfield

/-- What is known of the sections of two documents that load. -/
structure Loaded (catalog : List Str) (s : ProfileSections) : Prop where
  baseline : s.baseline.keys.Nodup
  overrides : s.overrides.keys.Nodup
  additions : s.additions.keys.Nodup
  baselineIncludes : ∀ e ∈ s.baseline, ∀ target ∈ e.2.includeFields, target ∈ catalog
  overrideIncludes : ∀ e ∈ s.overrides, ∀ target ∈ e.2.1.includeFields, target ∈ catalog
  additionIncludes : ∀ e ∈ s.additions, ∀ target ∈ e.2.1.includeFields, target ∈ catalog

theorem loadSections_loaded {baselineDocument profileDocument : Dict Toml}
    (hb : TablesDistinct baselineDocument) (hp : TablesDistinct profileDocument)
    (h : loadSections baselineDocument profileDocument catalog = .ok s) : Loaded catalog.keys s := by
  unfold loadSections at h
  obtain ⟨baseline,hbaseline,h⟩ := bind_eq_ok.mp h
  obtain ⟨overrides,hoverrides,h⟩ := bind_eq_ok.mp h
  obtain ⟨additions,hadditions,h⟩ := bind_eq_ok.mp h
  obtain ⟨removals,_,h⟩ := bind_eq_ok.mp h
  obtain ⟨omissions,_,h⟩ := bind_eq_ok.mp h
  obtain rfl := Except.ok.inj h
  have hbase := loadFieldSection_ok hb hbaseline
  have hover := loadFieldSection_ok hp hoverrides
  have hadd := loadFieldSection_ok hp hadditions
  constructor
  case baseline =>
    rw [Dict.keys_mapValues (fun pair : FleetTelemetryField × String => pair.1)]
    exact hbase.1
  case overrides => exact hover.1
  case additions => exact hadd.1
  case baselineIncludes =>
    intro e he
    obtain ⟨e',he',rfl⟩ := List.mem_map.mp he
    exact hbase.2 e' he'
  case overrideIncludes => exact hover.2
  case additionIncludes => exact hadd.2

end Sections

section Kept
variable {catalog : List Str} {s : ProfileSections} {name : Str} {field : FleetTelemetryField}

theorem mem_fields {fields : Dict (FleetTelemetryField × String)} (h : fields.keys.Nodup) :
    Dict.get (fields.map (fun e => (e.1,e.2.1))) name = some field ↔
      ∃ rationale, (name,(field,rationale)) ∈ fields := by
  rw [Dict.get_mapValues _ (fun pair : FleetTelemetryField × String => pair.1),
    Option.map_eq_some_iff]
  constructor
  · rintro ⟨⟨_,rationale⟩,hget,rfl⟩
    exact ⟨rationale,Dict.get_mem hget⟩
  · rintro ⟨rationale,hmem⟩
    exact ⟨_,Dict.get_of_mem h hmem,rfl⟩

theorem nodup_fields {fields : Dict (FleetTelemetryField × String)} (h : fields.keys.Nodup) :
    (Dict.keys (fields.map (fun e => (e.1,e.2.1)))).Nodup := by
  rw [Dict.keys_mapValues (fun pair : FleetTelemetryField × String => pair.1)]
  exact h

theorem nodup_configured (hl : Loaded catalog s) : s.configured.keys.Nodup := by
  unfold ProfileSections.configured
  apply Dict.nodup_update
  apply Dict.nodup_update
  exact hl.baseline.sublist (List.filter_sublist.map Prod.fst)

theorem mem_configured_iff (hl : Loaded catalog s) (hd : Divided catalog s) :
    (name,field) ∈ s.configured ↔ s.Kept name field := by
  rw [← Dict.get_eq_some_iff (nodup_configured hl)]
  unfold ProfileSections.configured ProfileSections.Kept
  rw [Dict.get_update (nodup_fields hl.additions),Dict.get_update (nodup_fields hl.overrides),
    Dict.get_drop,← mem_fields hl.additions,← mem_fields hl.overrides,
    ← Dict.get_eq_some_iff hl.baseline]
  have hbase : ∀ {α : Type} {d : Dict α} {value : α}, d.get name = some value → name ∈ d.keys :=
    fun h => Dict.mem_keys_of_mem (Dict.get_mem h)
  have hkeys := fun fields => Dict.keys_mapValues (d := fields)
    (fun pair : FleetTelemetryField × String => pair.1)
  cases hadd : Dict.get (s.additions.map (fun e => (e.1,e.2.1))) name with
  | some added =>
    have hname : name ∈ s.additions.keys := hkeys s.additions ▸ hbase hadd
    have hnone : s.baseline.get name = none :=
      Dict.get_eq_none_iff.mpr (hd.additions name hname).1
    have hover : Dict.get (s.overrides.map (fun e => (e.1,e.2.1))) name = none := by
      rw [Dict.get_eq_none_iff,hkeys]
      exact fun h => (hd.additions name hname).1 (hd.overrides name h).1
    simp [hnone,hover]
  | none =>
    cases hover : Dict.get (s.overrides.map (fun e => (e.1,e.2.1))) name with
    | some overridden =>
      have hname : name ∈ s.overrides.keys := hkeys s.overrides ▸ hbase hover
      simp [hname]
    | none =>
      have hname : name ∉ s.overrides.keys := by
        rw [← hkeys]
        exact Dict.get_eq_none_iff.mp hover
      by_cases hremoved : name ∈ s.removals.keys
      · simp [hremoved]
      · simp [hremoved,hname]

end Kept

section Profiles
variable {rows : List CatalogRow} {baselineDocument profileDocument : Dict Toml}

theorem loadProfileSections_loaded {profileMeta : Dict Toml} {baselineName : String}
    {s : ProfileSections} (hb : TablesDistinct baselineDocument) (hp : TablesDistinct profileDocument)
    (h : loadProfileSections rows baselineDocument profileDocument =
      .ok (profileMeta,baselineName,s)) : Loaded (catalogNames rows) s := by
  unfold loadProfileSections at h
  obtain ⟨definitions,hcatalog,h⟩ := bind_eq_ok.mp h
  obtain ⟨_,_,h⟩ := bind_eq_ok.mp h
  obtain ⟨_,_,h⟩ := bind_eq_ok.mp h
  obtain ⟨_,_,h⟩ := bind_eq_ok.mp h
  obtain ⟨sections,hsections,h⟩ := bind_eq_ok.mp h
  obtain ⟨_,_,h⟩ := bind_eq_ok.mp h
  obtain rfl : sections = s := congrArg (fun t => t.2.2) (Except.ok.inj h)
  have hloaded := loadSections_loaded hb hp hsections
  unfold loadFieldCatalog at hcatalog
  dsimp only at hcatalog
  split at hcatalog
  · cases hcatalog
  · obtain rfl := Except.ok.inj hcatalog
    simpa [Dict.keys,catalogNames,Function.comp_def] using hloaded

/-- The reviewed fields include only each other exactly where the documents say so. -/
theorem configured_includes_iff {catalog : List Str} {s : ProfileSections} (hl : Loaded catalog s)
    (hd : Divided catalog s) :
    (∀ entry ∈ s.configured, ∀ target ∈ entry.2.includeFields, target ∈ s.configured.keys) ↔
      s.IncludesKept := by
  have hknown : ∀ {name field}, s.Kept name field → ∀ target ∈ field.includeFields,
      target ∈ catalog := by
    intro name field hkept
    rcases hkept with ⟨rationale,hmem⟩ | ⟨rationale,hmem⟩ | ⟨hmem,_⟩
    · exact hl.additionIncludes _ hmem
    · exact hl.overrideIncludes _ hmem
    · exact hl.baselineIncludes _ hmem
  have htarget : ∀ {name field target}, s.Kept name field → target ∈ field.includeFields →
      (target ∈ s.configured.keys ↔ target ∉ s.omissions.keys ∧ target ∉ s.removals.keys) := by
    intro name field target hkept ht
    rw [hd.configured_iff (hknown hkept target ht),Dict.mem_keys_update,not_or]
  constructor
  · intro h name field hkept target ht
    exact (htarget hkept ht).mp (h (name,field) ((mem_configured_iff hl hd).mpr hkept) target ht)
  · intro h entry he target ht
    have hkept := (mem_configured_iff hl hd).mp he
    exact (htarget hkept ht).mpr (h _ _ hkept target ht)

/-- A client with included fields gets those of the reviewed fields. -/
theorem assembled_includes_iff {profileMeta : Dict Toml} {baselineName : String}
    {s : ProfileSections} {p : BroadProfile} {catalog : List Str} (hl : Loaded catalog s)
    (hd : Divided catalog s)
    (h : assembleProfile profileMeta baselineName s true true = .ok p) :
    IncludesConfigured p ↔ s.IncludesKept := by
  have hwhole : p.fields = s.configured := by
    rw [(assembleProfile_ok h).1,gated_fields]
    exact List.map_id _
  unfold IncludesConfigured
  rw [hwhole,configured_includes_iff hl hd]

/-- The targets of the included fields are configured exactly where the client gets none, or the
documents leave out no target of a field that they keep. -/
theorem includes_configured_iff {value : Option String} {p : BroadProfile}
    (hb : TablesDistinct baselineDocument) (hp : TablesDistinct profileDocument)
    (h : broadProfileFrom rows baselineDocument profileDocument value = .ok p) :
    ∃ profileMeta baselineName s version,
      loadProfileSections rows baselineDocument profileDocument = .ok (profileMeta,baselineName,s) ∧
      parsedVersion value = .ok version ∧
      (IncludesConfigured p ↔ version < clientVersion (1,3,0) ∨ s.IncludesKept) := by
  obtain ⟨profileMeta,baselineName,s,version,supportsSelfDriving,supportsIncludeFields,hload,
    hversion,hself,hinclude,hassemble⟩ := broadProfileFrom_ok h
  refine ⟨profileMeta,baselineName,s,version,hload,hversion,?_⟩
  cases hsupports : supportsIncludeFields with
  | false =>
    have hlt : version < clientVersion (1,3,0) := by
      by_contra hge
      have hincluded := hinclude.mpr (not_lt.mp hge)
      rw [hsupports] at hincluded
      cases hincluded
    refine iff_of_true ?_ (.inl hlt)
    intro entry he target ht
    rw [(assembleProfile_ok hassemble).1,gated_fields,hsupports] at he
    obtain ⟨e,_,rfl⟩ := List.mem_map.mp he
    cases ht
  | true =>
    have hle := hinclude.mp hsupports
    have hdriving : supportsSelfDriving = true := by
      refine hself.mpr (le_trans ?_ hle)
      exact clientVersion_le.mpr (by decide)
    rw [hdriving,hsupports] at hassemble
    rw [assembled_includes_iff (loadProfileSections_loaded hb hp hload)
      (loadProfileSections_divided hload) hassemble]
    exact (or_iff_right (not_lt_of_ge hle)).symm

end Profiles

section Trimmed

/-- The documents of `dottedProfile`, of which the second removes the field that the first
field includes. -/
def trimmedProfile : Dict Toml :=
  [(str "profile",.table dottedMeta),
   (str "overrides",.table []),(str "additions",.table []),
   (str "removals",.table [(nameOf 2,.str "Not needed.")]),
   (str "omissions",.table ((List.range' 93 146).map (fun n => (nameOf n,.str "Not needed."))))]

def trimmedSections : ProfileSections :=
  { dottedSections with removals := [(nameOf 2,"Not needed.")] }

theorem trimmed_tables :
    requireTable trimmedProfile "profile" = .ok dottedMeta ∧
    requireTable trimmedProfile "overrides" = .ok [] ∧
    requireTable trimmedProfile "additions" = .ok [] ∧
    requireTable trimmedProfile "removals" = .ok [(nameOf 2,.str "Not needed.")] ∧
    requireTable trimmedProfile "omissions" =
      .ok ((List.range' 93 146).map (fun n => (nameOf n,.str "Not needed."))) := by
  have hnames : (["profile","overrides","additions","removals","omissions"].map str).Nodup := by
    decide
  simp only [List.map_cons,List.map_nil,List.nodup_cons,List.mem_cons,List.not_mem_nil,
    or_false,not_or] at hnames
  simp [requireTable,trimmedProfile,Dict.get,hnames]

theorem trimmed_sections :
    loadSections dottedBaseline trimmedProfile dottedCatalog = .ok trimmedSections := by
  obtain ⟨_,hfields,_⟩ := dotted_tables
  obtain ⟨_,hoverrides,hadditions,hremovals,homissions⟩ := trimmed_tables
  have hremoved : Dict.traverse (loadReason dottedCatalog) [(nameOf 2,.str "Not needed.")] =
      .ok [(nameOf 2,"Not needed.")] := by
    have hreason : loadReason dottedCatalog (nameOf 2) (.str "Not needed.") = .ok "Not needed." :=
      dotted_reason (by omega)
    simp only [Dict.traverse,hreason]
  unfold loadSections
  refine bind_eq_ok.mpr ⟨_,bind_eq_ok.mpr ⟨_,hfields,dotted_fields⟩,?_⟩
  refine bind_eq_ok.mpr ⟨_,bind_eq_ok.mpr ⟨_,hoverrides,rfl⟩,?_⟩
  refine bind_eq_ok.mpr ⟨_,bind_eq_ok.mpr ⟨_,hadditions,rfl⟩,?_⟩
  refine bind_eq_ok.mpr ⟨_,bind_eq_ok.mpr ⟨_,hremovals,hremoved⟩,?_⟩
  refine bind_eq_ok.mpr ⟨_,bind_eq_ok.mpr ⟨_,homissions,dotted_omitted⟩,?_⟩
  rw [List.map_map]
  rfl

/-- Without overrides, a partition stays one under removals from the baseline. -/
theorem valid_removals {catalog : Dict TelemetryFieldDefinition} {s : ProfileSections}
    {removals : Dict String} (hoverrides : s.overrides = []) (hbase : removals.keys ⊆ s.baseline.keys)
    (h : validateDeclarativePartition catalog s = .ok ()) :
    validateDeclarativePartition catalog { s with removals } = .ok () := by
  unfold validateDeclarativePartition at h ⊢
  dsimp only at h ⊢
  repeat (split at h; · cases h)
  rename_i hcount hover _ _ hadditions homissions hdecided hevery
  rw [if_neg hcount,if_neg hover,if_neg (not_not.mpr hbase),if_neg ?meets,if_neg hadditions,
    if_neg homissions,if_neg hdecided,if_neg hevery]
  case meets =>
    rw [hoverrides]
    simp [meets,Dict.keys]

theorem baseline_mem {n : Nat} (hn : n < 93) : (nameOf n,dottedField n) ∈ dottedSections.baseline :=
  List.mem_map.mpr ⟨n,List.mem_range.mpr hn,rfl⟩

theorem trimmed_loads :
    loadProfileSections dottedRows dottedBaseline trimmedProfile =
      .ok (dottedMeta,"baseline",trimmedSections) := by
  have hremovals : Dict.keys [(nameOf 2,"Not needed.")] ⊆ dottedSections.baseline.keys := by
    intro name hname
    obtain rfl := List.mem_singleton.mp hname
    exact Dict.mem_keys_of_mem (baseline_mem (by omega))
  unfold loadProfileSections
  refine bind_eq_ok.mpr ⟨dottedDefinitions,dotted_catalog,?_⟩
  refine bind_eq_ok.mpr ⟨dottedMeta,dotted_tables.1,?_⟩
  refine bind_eq_ok.mpr ⟨dottedMeta,trimmed_tables.1,?_⟩
  refine bind_eq_ok.mpr ⟨"baseline",dotted_requires,?_⟩
  refine bind_eq_ok.mpr ⟨trimmedSections,trimmed_sections,?_⟩
  exact bind_eq_ok.mpr ⟨(),valid_removals rfl hremovals dotted_valid,rfl⟩

theorem tablesDistinct_of {document : Dict Toml}
    (h : ∀ e ∈ document, ∀ entries, e.2 = .table entries → (Dict.keys entries).Nodup) :
    TablesDistinct document := by
  intro key entries htable
  unfold requireTable at htable
  split at htable
  · rename_i hget
    obtain rfl := Except.ok.inj htable
    exact h _ (Dict.get_mem hget) _ rfl
  · cases htable

theorem dottedMeta_distinct : dottedMeta.keys.Nodup := by
  have hnames : (["name","baseline","version","schema_version","delivery_policy",
      "alert_types"].map str).Nodup := by
    decide
  exact hnames

theorem dottedBaseline_distinct : TablesDistinct dottedBaseline := by
  refine tablesDistinct_of (List.forall_mem_cons.mpr ⟨?_,List.forall_mem_singleton.mpr ?_⟩)
  · intro entries h
    obtain rfl := Toml.table.inj h
    exact dottedMeta_distinct
  · intro entries h
    obtain rfl := Toml.table.inj h
    rw [Dict.keys,List.map_map,List.range_eq_range']
    exact names_nodup (by omega)

theorem trimmedProfile_distinct : TablesDistinct trimmedProfile := by
  refine tablesDistinct_of ?_
  intro e he entries h
  unfold trimmedProfile at he
  simp only [List.mem_cons,List.not_mem_nil,or_false] at he
  rcases he with rfl | rfl | rfl | rfl | rfl
  · obtain rfl := Toml.table.inj h
    exact dottedMeta_distinct
  · obtain rfl := Toml.table.inj h
    exact List.nodup_nil
  · obtain rfl := Toml.table.inj h
    exact List.nodup_nil
  · obtain rfl := Toml.table.inj h
    exact List.nodup_singleton _
  · obtain rfl := Toml.table.inj h
    rw [Dict.keys,List.map_map]
    exact names_nodup (by omega)

theorem trimmed_profile {value : Option String} {version : ClientVersion}
    (hv : parsedVersion value = .ok version) :
    ∃ p, broadProfileFrom dottedRows dottedBaseline trimmedProfile value = .ok p := by
  rw [broadProfileFrom_eq trimmed_loads hv]
  unfold assembleProfile
  rw [dotted_strings.2.2.1,dotted_strings.2.2.2.1,dotted_strings.2.2.2.2,dotted_alerts]
  exact ⟨_,rfl⟩

/-- A client without included fields gets a profile that is closed. -/
theorem includes_configured_iff_trimmed :
    ∃ p, broadProfileFrom dottedRows dottedBaseline trimmedProfile (some "v1.2") = .ok p ∧
      IncludesConfigured p := by
  have hv : parsedVersion (some "v1.2") = .ok (clientVersion (1,2,0)) := by
    decide
  obtain ⟨p,hp⟩ := trimmed_profile hv
  obtain ⟨_,_,s,version,_,hversion,hiff⟩ :=
    includes_configured_iff dottedBaseline_distinct trimmedProfile_distinct hp
  obtain rfl := Except.ok.inj (hv.symm.trans hversion)
  refine ⟨p,hp,hiff.mpr (.inl (lt_of_not_ge ?_))⟩
  intro hle
  have hlater := clientVersion_le.mp hle
  simp at hlater

/-- The removed field is still included by the first one. -/
theorem trimmed_not_closed :
    ¬ ∀ rows baselineDocument profileDocument value p,
      TablesDistinct baselineDocument → TablesDistinct profileDocument →
      broadProfileFrom rows baselineDocument profileDocument value = .ok p →
      IncludesConfigured p := by
  intro hall
  have hv : parsedVersion (some "1.3.0") = .ok (clientVersion (1,3,0)) := by
    decide
  obtain ⟨p,hp⟩ := trimmed_profile hv
  have hclosed := hall _ _ _ _ p dottedBaseline_distinct trimmedProfile_distinct hp
  rw [broadProfileFrom_eq trimmed_loads hv,mapError_eq_ok] at hp
  have htwo : clientVersion (1,2,0) ≤ clientVersion (1,3,0) := clientVersion_le.mpr (by decide)
  rw [decide_eq_true htwo,decide_eq_true (le_refl _)] at hp
  have hloaded := loadProfileSections_loaded dottedBaseline_distinct trimmedProfile_distinct
    trimmed_loads
  have hkept := (assembled_includes_iff hloaded (loadProfileSections_divided trimmed_loads) hp).mp
    hclosed
  have hfirst : trimmedSections.Kept (nameOf 0) (dottedField 0) := by
    refine .inr (.inr ⟨baseline_mem (by omega),?_,List.not_mem_nil⟩)
    intro hmem
    have hsame : nameOf 0 = nameOf 2 := List.mem_singleton.mp hmem
    have hindex := nameOf_inj (by omega) (by omega) hsame
    omega
  exact (hkept _ _ hfirst (nameOf 2) (List.mem_singleton_self _)).2 (List.mem_singleton_self _)

end Trimmed

end Woodhouse.Telemetry
