import Woodhouse.Gateway.Ownership
import Woodhouse.Ingest.Routing

namespace Woodhouse.Gateway
open Effects Python Ingest

/-- The text a Firestore string is, if it is one. -/
def unStr (s : Str) : Option String :=
  let text := String.ofList (s.map (fun c => Char.ofNat c.val))
  if str text = s then some text else none

section Documents

def stringField (value : String) : Json := .str (str value)

def optionalField : Option String → Json
  | none => .null
  | some value => stringField value

/-- An index entry as the telemetry processor reads it. -/
def VinIndexDocument.document (entry : VinIndexDocument) : Document :=
  [(str "owner_user_id",stringField entry.ownerUserId),
   (str "vehicle_id",stringField entry.vehicleId)]

/-- A vehicle document as the telemetry processor reads it. -/
def VehicleDocument.document (data : VehicleDocument) : Document :=
  [(str "owner_user_id",stringField data.ownerUserId),
   (str "vin",stringField data.vin),
   (str "tesla_vehicle_id",stringField data.teslaVehicleId),
   (str "telemetry_config_version",optionalField data.telemetry.configVersion),
   (str "telemetry_config_hash",optionalField data.telemetry.configHash)]

/-- The collections of the gateway, as the telemetry processor's registry. -/
def registryOf (db : Database) (allowedUsers : List Document) : Registry where
  vinIndex indexId := ((unStr indexId).bind db.vinIndex).map VinIndexDocument.document
  vehicles vehicleId := ((unStr vehicleId).bind db.vehicles).map VehicleDocument.document
  allowedUsers := allowedUsers

variable (data : VehicleDocument)

theorem document_vin : data.document.string "vin" = some (str data.vin) := rfl

theorem document_owner : data.document.string "owner_user_id" = some (str data.ownerUserId) := rfl

end Documents

theorem registryOf_vehicle {db : Database} {allowedUsers : List Document} {vehicleId : Str}
    {document : Document} (h : (registryOf db allowedUsers).vehicles vehicleId = some document) :
    ∃ id data, db.vehicles id = some data ∧ document = data.document := by
  unfold registryOf at h
  obtain ⟨data, hdata, rfl⟩ := Option.map_eq_some_iff.mp h
  obtain ⟨id, _, hd⟩ := Option.bind_eq_some_iff.mp hdata
  exact ⟨id, data, hd, rfl⟩

variable (sha256Hex : String → String) (db₀ : Database) (operations : List VehicleOperation)

/-- Every read of the lookup is answered by the collections as they are somewhere along
the history. -/
def AnsweredAlong (es : List ServiceEvent) : Prop :=
  ∀ e ∈ es, ∃ pre allowedUsers, pre <+: operations ∧
    (registryOf (storeAfter sha256Hex db₀ pre) allowedUsers).Answers e

/-- A VIN has one owner for ever, over all the states of a history. -/
structure OwnedForEver : Prop where
  pointed : ∀ pre id entry, pre <+: operations →
    (storeAfter sha256Hex db₀ pre).vinIndex id = some entry →
    ∃ data, (storeAfter sha256Hex db₀ pre).vehicles entry.vehicleId = some data ∧
      id = sha256Hex data.vin ∧ data.ownerUserId = entry.ownerUserId
  unique : ∀ pre vehicleId vehicleId' data data', pre <+: operations →
    (storeAfter sha256Hex db₀ pre).vehicles vehicleId = some data →
    (storeAfter sha256Hex db₀ pre).vehicles vehicleId' = some data' →
    data.vin = data'.vin → vehicleId = vehicleId'
  kept : ∀ pre post id entry, pre ++ post <+: operations →
    (storeAfter sha256Hex db₀ pre).vinIndex id = some entry →
    (storeAfter sha256Hex db₀ (pre ++ post)).vinIndex id = some entry
  conflict : ∀ pre operation message, pre ++ [operation] <+: operations →
    operation.run sha256Hex (storeAfter sha256Hex db₀ pre) =
      .error (.vehicleOwnershipConflict message) →
    storeAfter sha256Hex db₀ (pre ++ [operation]) = storeAfter sha256Hex db₀ pre
  routed : ∀ digest vin es route,
    Trace (resolve digest vin) es (.ret (some route)) →
    AnsweredAlong sha256Hex db₀ operations es →
    ∃ text owner, vin = str text ∧ route.userId = str owner ∧
      FirstBinds sha256Hex db₀ operations (sha256Hex text) owner

variable {sha256Hex} {db₀} {operations}

/-- The vehicle document that a route was resolved through. -/
theorem resolved_document {digest : Bytes → Str} {vin : Str} {es : List ServiceEvent}
    {route : VehicleRoute} (ht : Trace (resolve digest vin) es (.ret (some route)))
    (answered : AnsweredAlong sha256Hex db₀ operations es) :
    ∃ pre vehicleId data, pre <+: operations ∧
      (storeAfter sha256Hex db₀ pre).vehicles vehicleId = some data ∧
      vin = str data.vin ∧ route.userId = str data.ownerUserId := by
  have hobeys : Obeys (Guarded fun _ _ _ => True) (fun h r => appends h = appends [] ∧
      ∀ route, r = .ok (some route) → Resolved digest h vin route) (resolve digest vin) [] :=
    resolve_obeys vin
  have hresolved : Resolved digest es vin route := (hobeys.trace ht).2 route rfl
  obtain ⟨_, _, vehicle, _, vehicleId, ownerUserId, _, vehicleData, _, _, hvehicle, _, _, hv, _,
    rfl⟩ := hresolved.reads
  obtain ⟨pre, allowedUsers, hpre, hanswer⟩ := answered _ hvehicle
  simp only [Registry.Answers] at hanswer
  rw [hanswer] at hv
  obtain ⟨hdoc, hvin, howner⟩ := vehicleOf_ok hv
  obtain ⟨id, data, hdata, rfl⟩ := registryOf_vehicle hdoc
  rw [document_vin] at hvin
  rw [document_owner] at howner
  exact ⟨pre, id, data, hpre, hdata, (Option.some.inj hvin).symm, (Option.some.inj howner).symm⟩

theorem identity_of_vehicle {db : Database} {vehicleId : String} {data : VehicleDocument}
    (h : db.vehicles vehicleId = some data) :
    db.identity vehicleId = some (data.ownerUserId, data.vin) := by
  unfold Database.identity
  rw [h]
  rfl

theorem vin_owned_for_ever (hindex : ∀ id, db₀.vinIndex id = none)
    (hvehicles : ∀ id, db₀.vehicles id = none)
    (free : CollisionFree sha256Hex (Lists operations)) :
    OwnedForEver sha256Hex db₀ operations := by
  have empty : Mirrored sha256Hex (Lists operations) db₀ := mirrored_empty hindex hvehicles
  constructor
  case pointed =>
    intro pre id entry hpre he
    obtain ⟨vin, _, hid, _, hd⟩ := (history_mirrored free empty hpre).indexed id entry he
    unfold Database.identity at hd
    obtain ⟨data, hdata, hpair⟩ := Option.map_eq_some_iff.mp hd
    obtain ⟨howner, hvin⟩ := Prod.mk.inj hpair
    exact ⟨data, hdata, hvin ▸ hid, howner⟩
  case unique =>
    intro pre vehicleId vehicleId' data data' hpre hd hd' hvin
    have hm := history_mirrored free empty hpre
    obtain ⟨_, _, he⟩ := hm.bound _ _ _ (identity_of_vehicle hd)
    obtain ⟨_, _, he'⟩ := hm.bound _ _ _ (identity_of_vehicle hd')
    rw [hvin, he'] at he
    exact (congrArg VinIndexDocument.vehicleId (Option.some.inj he)).symm
  case kept =>
    intro pre post id entry hpost he
    exact index_kept free empty hpost he
  case conflict =>
    intro pre operation message _ herror
    rw [storeAfter_snoc]
    unfold VehicleOperation.apply
    rw [herror]
  case routed =>
    intro digest vin es route ht answered
    obtain ⟨pre, vehicleId, data, hpre, hdata, rfl, howner⟩ := resolved_document ht answered
    obtain ⟨_, _, he⟩ := (history_mirrored free empty hpre).bound _ _ _ (identity_of_vehicle hdata)
    exact ⟨data.vin, data.ownerUserId, rfl, howner, firstBinds_of_entry free empty hindex hpre he⟩

section Witness

def sharedVin : String := "5YJ3E1EA7KF000001"

/-- The digests of the texts hashed when two users list one vehicle. -/
def vinDigest (text : String) : String :=
  if text = sharedVin then "ae07eace5e4ad24e62d3c8e2cf85063e19ed354715f19e5a4941fe4ef47b7532"
  else if text = "user-1\x00" ++ sharedVin then
    "744174297718c1d2e7f02ca9075bebb05d11d1a65f29e4a04b07d5e0eac2fbc9"
  else if text = "user-2\x00" ++ sharedVin then
    "0d7f74bc5dde4fc8223c2dfb48d2944d215de7ebdda1cbb4816d0f69353ea7e7"
  else ""

def emptyDatabase : Database :=
  { oauthStates := fun _ => none, connections := fun _ => none, vehicles := fun _ => none,
    vinIndex := fun _ => none }

def listedBy (owner : String) : VehicleOperation :=
  .syncVehicles owner ("conn_" ++ owner) [{ vin := sharedVin, teslaVehicleId := "1", displayName := none, state := none }]
    (fun _ => none)

theorem listed_shared {owner vin : String} (h : Lists [listedBy "user-1",listedBy "user-2"] owner vin) :
    (owner = "user-1" ∨ owner = "user-2") ∧ vin = sharedVin := by
  obtain ⟨_, vehicles, _, vehicle, hm, hv, rfl⟩ := h
  simp only [listedBy, List.mem_cons, List.not_mem_nil, or_false,
    VehicleOperation.syncVehicles.injEq] at hm
  rcases hm with ⟨rfl, _, rfl, _⟩ | ⟨rfl, _, rfl, _⟩
  · exact ⟨.inl rfl, by simpa using congrArg TeslaVehicle.vin (List.mem_singleton.mp hv)⟩
  · exact ⟨.inr rfl, by simpa using congrArg TeslaVehicle.vin (List.mem_singleton.mp hv)⟩

theorem vinDigest_free : CollisionFree vinDigest (Lists [listedBy "user-1",listedBy "user-2"]) := by
  constructor
  · intro owner owner' vin vin' h h' _
    rw [(listed_shared h).2, (listed_shared h').2]
  · intro owner owner' vin vin' h h' hsame
    obtain ⟨howner, rfl⟩ := listed_shared h
    obtain ⟨howner', rfl⟩ := listed_shared h'
    rcases howner with rfl | rfl <;> rcases howner' with rfl | rfl
    · exact ⟨rfl, rfl⟩
    · revert hsame
      decide
    · revert hsame
      decide
    · exact ⟨rfl, rfl⟩

/-- The second of two users who list one vehicle is refused, and the first keeps it. -/
theorem vin_owned_for_ever_shared :
    (storeAfter vinDigest emptyDatabase [listedBy "user-1",listedBy "user-2"]).vinIndex
        (vinDigest sharedVin) =
      some { ownerUserId := "user-1", vehicleId := "veh_744174297718c1d2e7f02ca9075bebb0" } ∧
    OwnedForEver vinDigest emptyDatabase [listedBy "user-1",listedBy "user-2"] :=
  ⟨by decide,
    vin_owned_for_ever (fun _ => rfl) (fun _ => rfl) vinDigest_free⟩

end Witness

end Woodhouse.Gateway
