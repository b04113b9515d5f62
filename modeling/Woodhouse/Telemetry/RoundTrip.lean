import Woodhouse.Python.Base64Encoding
import Woodhouse.Python.Dicts
import Woodhouse.Telemetry.Configurations

namespace Woodhouse.Telemetry
open Python
open Gateway (Exc)

/-- `FleetTelemetryConfig.to_payload`; the configurations of the gateway leave `exp` unset. -/
def FleetTelemetryConfig.toPayload (config : FleetTelemetryConfig) (exp : Option Int) : Dict Json :=
  [(str "hostname",.str config.hostname),
   (str "ca",.str config.ca),
   (str "fields",.obj (config.fields.map (fun entry => (entry.1,entry.2.toPayload)))),
   (str "port",.int config.port)] ++
  (if config.alertTypes = [] then []
    else [(str "alert_types",.arr (config.alertTypes.map Json.str))]) ++
  (exp.map (fun n => (str "exp",Json.int n))).toList ++
  (config.deliveryPolicy.map (fun policy => (str "delivery_policy",Json.str policy))).toList

section Members

/-- The member names of the two payloads, each list without a repetition. -/
theorem members_nodup :
    [str "interval_seconds",str "minimum_delta",str "resend_interval_seconds",
      str "include_fields"].Nodup ∧
    [str "hostname",str "ca",str "fields",str "port",str "alert_types",
      str "delivery_policy"].Nodup := by
  decide

theorem stringItems (items : List Str) : (items.map Json.str).mapM stringItem = .ok items := by
  induction items with
  | nil => rfl
  | cons item rest ih =>
    rw [List.map_cons, List.mapM_cons, ih]
    rfl

theorem payload_members (field : FleetTelemetryField) :
    ∃ members : Dict Json, field.toPayload = .obj members ∧
      members.get (str "interval_seconds") = some (.int field.intervalSeconds) ∧
      members.get (str "minimum_delta") = field.minimumDelta.map Number.toJson ∧
      members.get (str "resend_interval_seconds") = field.resendIntervalSeconds.map Json.int ∧
      members.get (str "include_fields") =
        if field.includeFields = [] then none else some (.arr (field.includeFields.map Json.str)) := by
  have hnames := members_nodup.1
  simp only [List.nodup_cons, List.mem_cons, List.not_mem_nil, or_false, not_or] at hnames
  refine ⟨_, rfl, ?_⟩
  cases field.minimumDelta <;> cases field.resendIntervalSeconds <;>
    by_cases hinclude : field.includeFields = [] <;>
    simp [Dict.get, hnames, hinclude, Ne.symm]

theorem parseField_toPayload (field : FleetTelemetryField) :
    parseField field.toPayload = .ok field := by
  obtain ⟨members, hpayload, hinterval, hdelta, hresend, hinclude⟩ := payload_members field
  rw [hpayload]
  unfold parseField
  dsimp only
  rw [hinterval, hdelta, hresend, hinclude]
  have hnumber : optionalNumber (field.minimumDelta.map Number.toJson) = .ok field.minimumDelta := by
    match field.minimumDelta with
    | none => rfl
    | some (.int n) => rfl
    | some (.float x) => rfl
  have hint : optionalInt (field.resendIntervalSeconds.map Json.int) =
      .ok field.resendIntervalSeconds := by
    match field.resendIntervalSeconds with
    | none => rfl
    | some n => rfl
  have hstrings : stringList (if field.includeFields = [] then none
      else some (.arr (field.includeFields.map Json.str))) = .ok field.includeFields := by
    split
    · rename_i hempty
      rw [hempty]
      rfl
    · exact stringItems field.includeFields
  rw [hnumber, hint, hstrings]
  rfl

theorem config_members (config : FleetTelemetryConfig) :
    let members := config.toPayload none
    members.get (str "hostname") = some (.str config.hostname) ∧
    members.get (str "ca") = some (.str config.ca) ∧
    members.get (str "fields") =
      some (.obj (config.fields.map (fun entry => (entry.1,entry.2.toPayload)))) ∧
    members.get (str "port") = some (.int config.port) ∧
    members.get (str "alert_types") =
      (if config.alertTypes = [] then none else some (.arr (config.alertTypes.map Json.str))) ∧
    members.get (str "delivery_policy") = config.deliveryPolicy.map Json.str := by
  have hnames := members_nodup.2
  simp only [List.nodup_cons, List.mem_cons, List.not_mem_nil, or_false, not_or] at hnames
  unfold FleetTelemetryConfig.toPayload
  cases config.deliveryPolicy <;> by_cases halerts : config.alertTypes = [] <;>
    simp [Dict.get, hnames, halerts, Ne.symm]

/-- The fields of a payload parse to the fields they were written from. -/
theorem parseFields (fields : Dict FleetTelemetryField) :
    (fields.map (fun entry => (entry.1,entry.2.toPayload))).mapM (fun entry => do
      let field ← parseField entry.2
      return (entry.1,field)) = .ok fields := by
  induction fields with
  | nil => rfl
  | cons entry rest ih =>
    rw [List.map_cons, List.mapM_cons, ih]
    dsimp only
    rw [parseField_toPayload]
    rfl

theorem alertTypes_ok {alerts : List Str} (h : ∀ alert ∈ alerts, alert ∈ allowedAlerts) :
    alertTypes (if alerts = [] then none else some (.arr (alerts.map Json.str))) = .ok alerts := by
  have hlist : stringList (if alerts = [] then none else some (.arr (alerts.map Json.str))) =
      .ok alerts := by
    split
    · rename_i hempty
      rw [hempty]
      rfl
    · exact stringItems alerts
  have hall : alerts.all (fun item => item ∈ allowedAlerts) = true := by
    rw [List.all_eq_true]
    intro alert hm
    exact decide_eq_true (h alert hm)
  unfold alertTypes
  rw [hlist]
  refine bind_eq_ok.mpr ⟨alerts, rfl, ?_⟩
  rw [if_pos hall]
  rfl

/-- A payload parses to the configuration it was written from. -/
theorem parseTeslaConfig_toPayload {config : FleetTelemetryConfig}
    (h : ∀ alert ∈ config.alertTypes, alert ∈ allowedAlerts) :
    parseTeslaConfig [(str "config",.obj (config.toPayload none))] = .ok (some config) := by
  obtain ⟨hhostname, hca, hfields, hport, halerts, hpolicy⟩ := config_members config
  have hdelivery : deliveryPolicy (config.deliveryPolicy.map Json.str) = .ok config.deliveryPolicy := by
    match config.deliveryPolicy with
    | none => rfl
    | some policy => rfl
  have hparse : parseConfig (config.toPayload none) = .ok config := by
    unfold parseConfig
    rw [hhostname, hca, hfields]
    dsimp only
    rw [hport, halerts, hpolicy, parseFields, alertTypes_ok h, hdelivery]
    rfl
  unfold parseTeslaConfig
  simp [Dict.get, hparse, Except.map]

end Members

section InSync
variable {sha256Hex : Bytes → String} {loadPemCertificates : Bytes → Except Exc (List Certificate)}

/-- A document compared with itself, by an equality that its fields have with themselves. -/
theorem compareDocumentsBy_self {eq : FleetTelemetryField → FleetTelemetryField → Bool}
    {safe : SafeConfigDocument} (hnodup : safe.fields.keys.Nodup)
    (heq : ∀ entry ∈ safe.fields, eq entry.2 entry.2 = true) :
    compareDocumentsBy eq safe safe = .compared [] [] [] [] := by
  have hmissing : safe.fields.filter (fun entry => (safe.fields.get entry.1).isNone) = [] := by
    rw [List.filter_eq_nil_iff]
    intro entry hm
    rw [Dict.get_of_mem hnodup hm]
    simp
  unfold compareDocumentsBy
  simp only [if_true, and_self, List.append_nil, hmissing, List.map_nil, ConfigDiff.compared.injEq,
    true_and, List.map_eq_nil_iff]
  rw [List.filter_eq_nil_iff]
  intro entry hm
  rw [Dict.get_of_mem hnodup hm]
  simp [heq entry hm]

theorem configDiffBy_self {eq : FleetTelemetryField → FleetTelemetryField → Bool}
    {config : FleetTelemetryConfig} {safe : SafeConfigDocument} (hnodup : config.fields.keys.Nodup)
    (heq : ∀ entry ∈ config.fields, eq entry.2 entry.2 = true)
    (hsafe : safeConfigDocument sha256Hex loadPemCertificates config = .ok safe) :
    configDiffBy sha256Hex loadPemCertificates eq (some config) config =
      .ok (.compared [] [] [] []) := by
  have hfields : safe.fields = config.fields := by
    unfold safeConfigDocument at hsafe
    obtain ⟨pem, _, hsafe⟩ := bind_eq_ok.mp hsafe
    obtain ⟨certificates, _, hsafe⟩ := bind_eq_ok.mp hsafe
    split at hsafe
    · cases hsafe
    · obtain rfl := Except.ok.inj hsafe
      rfl
  rw [← hfields] at hnodup heq
  unfold configDiffBy
  refine bind_eq_ok.mpr ⟨safe, hsafe, bind_eq_ok.mpr ⟨safe, hsafe, ?_⟩⟩
  exact congrArg Except.ok (compareDocumentsBy_self hnodup heq)

theorem eqShared_self (field : FleetTelemetryField) : field.eqShared field = true := by
  unfold FleetTelemetryField.eqShared
  simp

theorem eq_self {field : FleetTelemetryField} (h : field.minimumDelta ≠ some (.float .nan)) :
    field.eq field = true := by
  unfold FleetTelemetryField.eq
  match hdelta : field.minimumDelta with
  | none => simp
  | some (.int n) => simp [Number.eq, Number.key]
  | some (.float .nan) => exact absurd hdelta h
  | some (.float (.inf negative)) => simp [Number.eq, Number.key]
  | some (.float (.finite negative q)) => simp [Number.eq, Number.key]

end InSync

/-- A configuration comes back from its payload, and is then in sync with itself: where the two
share the payload's objects, and with objects of its own wherever no delta is a NaN. -/
theorem configuration_round_trips {config : FleetTelemetryConfig}
    (hdict : config.fields.keys.Nodup)
    (halerts : ∀ alert ∈ config.alertTypes, alert ∈ allowedAlerts) :
    parseTeslaConfig [(str "config",.obj (config.toPayload none))] = .ok (some config) ∧
    ∀ sha256Hex loadPemCertificates safe,
      safeConfigDocument sha256Hex loadPemCertificates config = .ok safe →
      (∃ diff, configDiffShared sha256Hex loadPemCertificates (some config) config = .ok diff ∧
        diff.status = "in_sync") ∧
      ((∀ entry ∈ config.fields, entry.2.minimumDelta ≠ some (.float .nan)) →
        ∃ diff, configDiff sha256Hex loadPemCertificates (some config) config = .ok diff ∧
          diff.status = "in_sync") := by
  refine ⟨parseTeslaConfig_toPayload halerts, ?_⟩
  intro sha256Hex loadPemCertificates safe hsafe
  constructor
  · exact ⟨_, configDiffBy_self hdict (fun entry _ => eqShared_self entry.2) hsafe, rfl⟩
  · intro hnan
    exact ⟨_, configDiffBy_self hdict (fun entry hm => eq_self (hnan entry hm)) hsafe, rfl⟩

section Witness

/-- A self-signed CA certificate. -/
def firstRoot : Bytes :=
  [0x30,0x81,0xd9,0x30,0x81,0x8c,0xa0,0x03,0x02,0x01,0x02,0x02,0x01,0x01,0x30,0x05,0x06,0x03,0x2b,
   0x65,0x70,0x30,0x0c,0x31,0x0a,0x30,0x08,0x06,0x03,0x55,0x04,0x03,0x0c,0x01,0x61,0x30,0x1e,0x17,
   0x0d,0x32,0x36,0x31,0x31,0x31,0x39,0x32,0x33,0x34,0x35,0x31,0x32,0x5a,0x17,0x0d,0x33,0x36,0x31,
   0x31,0x31,0x36,0x32,0x33,0x34,0x35,0x31,0x32,0x5a,0x30,0x0c,0x31,0x0a,0x30,0x08,0x06,0x03,0x55,
   0x04,0x03,0x0c,0x01,0x61,0x30,0x2a,0x30,0x05,0x06,0x03,0x2b,0x65,0x70,0x03,0x21,0x00,0xda,0x75,
   0x74,0x94,0xd7,0x8d,0x6e,0x17,0x24,0x50,0x60,0x05,0x99,0x3c,0x8a,0xa5,0xb3,0x6f,0xec,0xc3,0x56,
   0xa9,0x99,0x4c,0xd9,0x06,0x58,0x4a,0x57,0xbe,0xe4,0x45,0xa3,0x13,0x30,0x11,0x30,0x0f,0x06,0x03,
   0x55,0x1d,0x13,0x01,0x01,0xff,0x04,0x05,0x30,0x03,0x01,0x01,0xff,0x30,0x05,0x06,0x03,0x2b,0x65,
   0x70,0x03,0x41,0x00,0x66,0x9a,0x91,0xad,0x77,0xd5,0xf1,0xc6,0x99,0x4a,0xf2,0x9f,0xb4,0x0f,0x54,
   0x4b,0xa8,0x6d,0x82,0xcc,0x50,0x11,0x3c,0x1b,0x40,0x5a,0xe5,0x3c,0x81,0x61,0x4c,0x42,0x14,0xa1,
   0x93,0xf2,0x96,0x0e,0xb4,0x17,0x77,0xa2,0x34,0x7d,0x53,0x7b,0xd7,0x5a,0xc9,0x68,0x2b,0xb4,0x82,
   0x53,0xa0,0x3e,0x10,0x9e,0xf0,0x01,0xe9,0x99,0xea,0x0f]

def secondRoot : Bytes :=
  [0x30,0x81,0xd9,0x30,0x81,0x8c,0xa0,0x03,0x02,0x01,0x02,0x02,0x01,0x01,0x30,0x05,0x06,0x03,0x2b,
   0x65,0x70,0x30,0x0c,0x31,0x0a,0x30,0x08,0x06,0x03,0x55,0x04,0x03,0x0c,0x01,0x62,0x30,0x1e,0x17,
   0x0d,0x32,0x36,0x31,0x31,0x31,0x39,0x32,0x33,0x34,0x35,0x31,0x32,0x5a,0x17,0x0d,0x33,0x36,0x31,
   0x31,0x31,0x36,0x32,0x33,0x34,0x35,0x31,0x32,0x5a,0x30,0x0c,0x31,0x0a,0x30,0x08,0x06,0x03,0x55,
   0x04,0x03,0x0c,0x01,0x62,0x30,0x2a,0x30,0x05,0x06,0x03,0x2b,0x65,0x70,0x03,0x21,0x00,0xfe,0x9d,
   0xa7,0xd2,0xd1,0x4a,0xcc,0x6c,0x83,0x8b,0x8e,0xe4,0x57,0x51,0xa9,0x85,0x3b,0x83,0xa3,0xce,0xab,
   0x72,0xf9,0x50,0x07,0x7f,0x0d,0x37,0xf8,0xe5,0x09,0x31,0xa3,0x13,0x30,0x11,0x30,0x0f,0x06,0x03,
   0x55,0x1d,0x13,0x01,0x01,0xff,0x04,0x05,0x30,0x03,0x01,0x01,0xff,0x30,0x05,0x06,0x03,0x2b,0x65,
   0x70,0x03,0x41,0x00,0x1b,0x13,0x03,0xf1,0x14,0x3f,0x12,0x80,0x4e,0xa0,0x9f,0x0a,0x31,0xfc,0xcd,
   0x1f,0xca,0x47,0x8a,0xbf,0xa0,0x90,0x09,0xa9,0xfc,0x40,0x7a,0xd0,0x79,0x3c,0x12,0x7f,0xd0,0xb1,
   0x4c,0xf9,0x9a,0xaa,0xd1,0xa0,0xeb,0x03,0x94,0x84,0x05,0x45,0x0d,0x2d,0xed,0xd4,0x06,0x05,0xaf,
   0x67,0xfd,0xbb,0x8a,0x88,0x32,0x9b,0x9a,0xbc,0xd4,0x02]

def pemText (der : Bytes) : Str :=
  str "-----BEGIN CERTIFICATE-----\n" ++ b64encode der ++ str "\n-----END CERTIFICATE-----\n"

/-- The loader on the texts of the two certificates. -/
def rootCertificates (pem : Bytes) : Except Exc (List Certificate) :=
  if pem = asciiBytes (pemText firstRoot) then .ok [⟨firstRoot,some true⟩]
  else if pem = asciiBytes (pemText secondRoot) then .ok [⟨secondRoot,some true⟩]
  else .error valueError

/-- The digests of the two certificates. -/
def rootDigest (bundle : Bytes) : String :=
  if bundle = firstRoot then "90afdcaf8733b46fbdc38cd3736bff97ee583bb3302b31d3a69b32374fb8900d"
  else if bundle = secondRoot then
    "aaeb6f78f234c2e6a22641bf7f5c0c9846ec08e033a3df333dc14c2f9df2d48f"
  else ""

def streamedConfig : FleetTelemetryConfig :=
  { hostname := str "telemetry.example.com"
    ca := pemText firstRoot
    fields :=
      [(str "Soc",
        { intervalSeconds := 60, minimumDelta := some (.float (.finite false (1 / 10)))
          includeFields := [str "Odometer"] }),
       (str "Odometer",{ intervalSeconds := 60, minimumDelta := some (.float .nan) })]
    alertTypes := [str "service"]
    deliveryPolicy := some (str "latest") }

theorem encodeAscii_pemText (der : Bytes) :
    encodeAscii (pemText der) = .ok (asciiBytes (pemText der)) := by
  have hascii : isAscii (pemText der) = true := by
    have hbody := isAscii_b64encode der
    unfold isAscii at hbody ⊢
    unfold pemText
    rw [List.all_append,List.all_append,hbody]
    decide
  exact if_pos hascii

theorem configuration_round_trips_streamed :
    parseTeslaConfig [(str "config",.obj (streamedConfig.toPayload none))] = .ok (some streamedConfig) ∧
    ∃ diff, configDiffShared rootDigest rootCertificates (some streamedConfig) streamedConfig =
      .ok diff ∧ diff.status = "in_sync" := by
  have hdict : streamedConfig.fields.keys.Nodup := by
    decide
  have halerts : ∀ alert ∈ streamedConfig.alertTypes, alert ∈ allowedAlerts := by
    decide
  have hascii : encodeAscii streamedConfig.ca = .ok (asciiBytes (pemText firstRoot)) :=
    encodeAscii_pemText firstRoot
  have hload : rootCertificates (asciiBytes (pemText firstRoot)) = .ok [⟨firstRoot,some true⟩] :=
    if_pos rfl
  have hsafe : ∃ safe, safeConfigDocument rootDigest rootCertificates streamedConfig =
      .ok safe := by
    unfold safeConfigDocument
    simp only [hascii, hload, bind, Except.bind]
    exact ⟨_, rfl⟩
  obtain ⟨safe, hsafe⟩ := hsafe
  obtain ⟨hparse, hsync⟩ := configuration_round_trips hdict halerts
  exact ⟨hparse, (hsync _ _ safe hsafe).1⟩

end Witness

end Woodhouse.Telemetry
