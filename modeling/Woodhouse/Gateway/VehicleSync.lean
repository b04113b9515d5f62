import Woodhouse.Gateway.VinRoutes

namespace Woodhouse.Gateway

variable {sha256Hex : String → String} {lists : String → String → Prop} {db db' : Database}
  {owner connectionId : String} {vehicles : List TeslaVehicle}
  {statuses : String → Option FleetStatus} {records : List VehicleRecord}

/-- A VIN of a vehicle list. -/
def Listed (vehicles : List TeslaVehicle) (vin : String) : Prop :=
  ∃ vehicle ∈ vehicles, vehicle.vin = vin

/-- The vehicle documents after a sync, against the ones before it. -/
structure Synced (owner connectionId : String) (vehicles : List TeslaVehicle)
    (db db' : Database) : Prop where
  stored : ∀ vin, Listed vehicles vin →
    ∃ vehicleId data, db'.vehicles vehicleId = some data ∧ data.identity = (owner,vin)
  listed : ∀ vehicleId data, db'.vehicles vehicleId = some data → data.ownerUserId = owner →
    Listed vehicles data.vin →
    data.connectionId = connectionId ∧ data.authorizationStatus = .active
  missing : ∀ vehicleId data, db'.vehicles vehicleId = some data → data.ownerUserId = owner →
    data.connectionId = connectionId → ¬ Listed vehicles data.vin →
    data.authorizationStatus = .notReturned
  telemetry : ∀ vehicleId data, db.vehicles vehicleId = some data →
    ∃ data', db'.vehicles vehicleId = some data' ∧ data'.telemetry = data.telemetry
  created : ∀ vehicleId data, db.vehicles vehicleId = none → db'.vehicles vehicleId = some data →
    data.telemetry = {} ∧ data.ownerUserId = owner ∧ Listed vehicles data.vin
  others : ∀ vehicleId data, data.ownerUserId ≠ owner →
    (db'.vehicles vehicleId = some data ↔ db.vehicles vehicleId = some data)
  elsewhere : ∀ vehicleId data, db.vehicles vehicleId = some data → data.ownerUserId = owner →
    data.connectionId ≠ connectionId → ¬ Listed vehicles data.vin →
    db'.vehicles vehicleId = some data

section Writes

/-- The second of two merges into one document is the one that stays. -/
theorem mergeRecord_mergeRecord (old : Option VehicleDocument) (first second : VehicleRecord) :
    Database.mergeRecord (some (Database.mergeRecord old first)) second =
      Database.mergeRecord old second := rfl

theorem mergeRecord_telemetry (data : VehicleDocument) (record : VehicleRecord) :
    (Database.mergeRecord (some data) record).telemetry = data.telemetry := rfl

theorem bindVehicle_other {record : VehicleRecord} {vehicleId : String}
    (h : vehicleId ≠ record.vehicleId) :
    (db.bindVehicle sha256Hex record).vehicles vehicleId = db.vehicles vehicleId := by
  simp [Database.bindVehicle, Function.update_of_ne h]

theorem bindVehicle_self (record : VehicleRecord) :
    (db.bindVehicle sha256Hex record).vehicles record.vehicleId =
      some (Database.mergeRecord (db.vehicles record.vehicleId) record) := by
  simp [Database.bindVehicle]

theorem bindVehicles_other {vehicleId : String} (h : vehicleId ∉ records.map VehicleRecord.vehicleId) :
    (records.foldl (Database.bindVehicle sha256Hex) db).vehicles vehicleId =
      db.vehicles vehicleId := by
  induction records generalizing db with
  | nil => rfl
  | cons record rest ih =>
    simp only [List.map_cons, List.mem_cons, not_or] at h
    rw [List.foldl_cons, ih h.2, bindVehicle_other h.1]

/-- A document that several records are merged into holds one of them, over the telemetry
fields it had. -/
theorem bindVehicles_listed {vehicleId : String} (h : vehicleId ∈ records.map VehicleRecord.vehicleId) :
    ∃ record ∈ records, record.vehicleId = vehicleId ∧
      (records.foldl (Database.bindVehicle sha256Hex) db).vehicles vehicleId =
        some (Database.mergeRecord (db.vehicles vehicleId) record) := by
  induction records generalizing db with
  | nil => simp at h
  | cons record rest ih =>
    rw [List.foldl_cons]
    by_cases hrest : vehicleId ∈ rest.map VehicleRecord.vehicleId
    · obtain ⟨last, hm, hid, hw⟩ := @ih (db.bindVehicle sha256Hex record) hrest
      refine ⟨last, List.mem_cons_of_mem _ hm, hid, ?_⟩
      rw [hw]
      by_cases hsame : vehicleId = record.vehicleId
      · subst hsame
        rw [bindVehicle_self, mergeRecord_mergeRecord]
      · rw [bindVehicle_other hsame]
    · obtain rfl : vehicleId = record.vehicleId := by simpa [hrest] using h
      refine ⟨record, List.mem_cons_self .., rfl, ?_⟩
      rw [bindVehicles_other hrest, bindVehicle_self]

/-- What the last loop does to a document. -/
def markMissing (owner connectionId : String) (data : VehicleDocument) : VehicleDocument :=
  if data.ownerUserId = owner ∧ data.connectionId = connectionId then
    { data with authorizationStatus := .notReturned }
  else data

theorem markNotReturned_active {active : List String} {written : Database} {vehicleId : String}
    (h : vehicleId ∈ active) :
    (db.markNotReturned owner connectionId active written).vehicles vehicleId =
      written.vehicles vehicleId := by
  unfold Database.markNotReturned
  dsimp only
  split
  · rfl
  · simp [h]

theorem markNotReturned_missing {active : List String} {written : Database} {vehicleId : String}
    (h : vehicleId ∉ active) (hw : written.vehicles vehicleId = db.vehicles vehicleId) :
    (db.markNotReturned owner connectionId active written).vehicles vehicleId =
      (db.vehicles vehicleId).map (markMissing owner connectionId) := by
  unfold Database.markNotReturned
  dsimp only
  cases hd : db.vehicles vehicleId with
  | none => simpa [hd] using hw
  | some data =>
    rw [hd] at hw
    by_cases hof : data.ownerUserId = owner ∧ data.connectionId = connectionId
    · simp [hw, h, hof, markMissing]
    · have hoff : ¬ (data.ownerUserId = owner ∧ vehicleId ∉ active ∧
          data.connectionId = connectionId) := fun ⟨ho, _, hc⟩ => hof ⟨ho,hc⟩
      simp only [hw, Option.map_some, markMissing]
      rw [if_neg hof, if_neg hoff]

@[simp] theorem markMissing_owner (data : VehicleDocument) :
    (markMissing owner connectionId data).ownerUserId = data.ownerUserId := by
  unfold markMissing
  split <;> rfl

@[simp] theorem markMissing_vin (data : VehicleDocument) :
    (markMissing owner connectionId data).vin = data.vin := by
  unfold markMissing
  split <;> rfl

@[simp] theorem markMissing_connection (data : VehicleDocument) :
    (markMissing owner connectionId data).connectionId = data.connectionId := by
  unfold markMissing
  split <;> rfl

theorem markMissing_telemetry (data : VehicleDocument) :
    (markMissing owner connectionId data).telemetry = data.telemetry := by
  unfold markMissing
  split <;> rfl

end Writes

section Records

theorem syncRecords_recorded (hr : db.syncRecords sha256Hex owner connectionId statuses vehicles = .ok records)
    {vehicle : TeslaVehicle} (hm : vehicle ∈ vehicles) :
    ∃ record ∈ records, record.vin = vehicle.vin := by
  induction vehicles generalizing records with
  | nil => cases hm
  | cons first rest ih =>
    unfold Database.syncRecords at hr
    split at hr
    · cases hr
    · split at hr
      · cases hr
      · rename_i others hothers
        obtain rfl := Except.ok.inj hr
        rcases List.mem_cons.mp hm with rfl | hm
        · exact ⟨_, List.mem_cons_self .., rfl⟩
        · obtain ⟨record, hrec, hvin⟩ := ih hothers hm
          exact ⟨record, List.mem_cons_of_mem _ hrec, hvin⟩

theorem syncRecords_active (hr : db.syncRecords sha256Hex owner connectionId statuses vehicles = .ok records)
    {record : VehicleRecord} (hm : record ∈ records) :
    record.connectionId = connectionId ∧ record.authorizationStatus = .active := by
  induction vehicles generalizing records with
  | nil =>
    obtain rfl := Except.ok.inj hr
    cases hm
  | cons first rest ih =>
    unfold Database.syncRecords at hr
    split at hr
    · cases hr
    · split at hr
      · cases hr
      · rename_i others hothers
        obtain rfl := Except.ok.inj hr
        rcases List.mem_cons.mp hm with rfl | hm
        · exact ⟨rfl,rfl⟩
        · exact ih hothers hm

end Records

section Sync

/-- The documents after a sync, those of the listed ids and the others. -/
theorem syncVehicles_writes
    (hs : db.syncVehicles sha256Hex owner connectionId vehicles statuses = .ok (records,db')) :
    db.syncRecords sha256Hex owner connectionId statuses vehicles = .ok records ∧
    (∀ vehicleId ∈ records.map VehicleRecord.vehicleId,
      ∃ record ∈ records, record.vehicleId = vehicleId ∧
        db'.vehicles vehicleId = some (Database.mergeRecord (db.vehicles vehicleId) record)) ∧
    (∀ vehicleId, vehicleId ∉ records.map VehicleRecord.vehicleId →
      db'.vehicles vehicleId = (db.vehicles vehicleId).map (markMissing owner connectionId)) := by
  unfold Database.syncVehicles at hs
  split at hs
  · cases hs
  · rename_i found hfound
    obtain ⟨rfl,rfl⟩ := Prod.mk.inj (Except.ok.inj hs)
    refine ⟨hfound, ?_, ?_⟩
    · intro vehicleId hm
      rw [markNotReturned_active hm]
      exact bindVehicles_listed hm
    · intro vehicleId hm
      exact markNotReturned_missing hm (bindVehicles_other hm)

variable (free : CollisionFree sha256Hex lists) (h : Mirrored sha256Hex lists db)
  (hlisted : ∀ vehicle ∈ vehicles, lists owner vehicle.vin)
  (hr : db.syncRecords sha256Hex owner connectionId statuses vehicles = .ok records)
include free h hlisted hr

/-- A document that the sync writes into is the owner's, of a listed VIN. -/
theorem written_listed {vehicleId : String} {data : VehicleDocument}
    (hd : db.vehicles vehicleId = some data)
    (hm : vehicleId ∈ records.map VehicleRecord.vehicleId) :
    data.ownerUserId = owner ∧ Listed vehicles data.vin := by
  obtain ⟨record, hrec, rfl⟩ := List.mem_map.mp hm
  obtain ⟨hb, vehicle, hv, hvin⟩ := syncRecords_bindable free h hlisted hr record hrec
  obtain ⟨hl, hid, _⟩ := h.bound _ _ _ (identity_of_vehicle hd)
  obtain ⟨howner, hsame⟩ := free.vehicle _ _ _ _ hl hb.listed (hid.symm.trans hb.stable)
  exact ⟨howner, vehicle, hv, by rw [hsame, hvin]⟩

/-- The owner's document of a listed VIN is one the sync writes into. -/
theorem listed_written {vehicleId : String} {data : VehicleDocument}
    (hd : db.vehicles vehicleId = some data) (howner : data.ownerUserId = owner)
    (hvin : Listed vehicles data.vin) : vehicleId ∈ records.map VehicleRecord.vehicleId := by
  obtain ⟨vehicle, hm, hsame⟩ := hvin
  obtain ⟨record, hrec, hrecord⟩ := syncRecords_recorded hr hm
  have hstable := (syncRecords_bindable free h hlisted hr record hrec).1.stable
  obtain ⟨_, hid, _⟩ := h.bound _ _ _ (identity_of_vehicle hd)
  rw [howner, ← hsame, ← hrecord, ← hstable] at hid
  exact List.mem_map.mpr ⟨record, hrec, hid.symm⟩

theorem mergeRecord_synced {record : VehicleRecord} (hm : record ∈ records)
    (old : Option VehicleDocument) :
    let data := Database.mergeRecord old record
    data.ownerUserId = owner ∧ Listed vehicles data.vin ∧ data.connectionId = connectionId ∧
      data.authorizationStatus = .active := by
  obtain ⟨hb, vehicle, hv, hvin⟩ := syncRecords_bindable free h hlisted hr record hm
  obtain ⟨hconnection, hstatus⟩ := syncRecords_active hr hm
  exact ⟨hb.owned, ⟨vehicle, hv, hvin.symm⟩, hconnection, hstatus⟩

end Sync

theorem markMissing_of_ne {data : VehicleDocument}
    (h : data.ownerUserId ≠ owner ∨ data.connectionId ≠ connectionId) :
    markMissing owner connectionId data = data := by
  unfold markMissing
  rw [if_neg]
  rintro ⟨howner, hconnection⟩
  rcases h with h | h
  · exact h howner
  · exact h hconnection

/-- What a sync does to the documents, in a state whose index mirrors them. -/
theorem syncVehicles_synced (free : CollisionFree sha256Hex lists) (h : Mirrored sha256Hex lists db)
    (hlisted : ∀ vehicle ∈ vehicles, lists owner vehicle.vin)
    (hs : db.syncVehicles sha256Hex owner connectionId vehicles statuses = .ok (records,db')) :
    Synced owner connectionId vehicles db db' := by
  obtain ⟨hr, hactive, hrest⟩ := syncVehicles_writes hs
  -- a document the last loop could reach keeps its identity, so its VIN tells if it was listed
  have hkept : ∀ vehicleId data, vehicleId ∉ records.map VehicleRecord.vehicleId →
      db'.vehicles vehicleId = some data →
      ∃ old, db.vehicles vehicleId = some old ∧ markMissing owner connectionId old = data := by
    intro vehicleId data hm hd
    rw [hrest vehicleId hm] at hd
    exact Option.map_eq_some_iff.mp hd
  constructor
  case stored =>
    rintro vin ⟨vehicle, hm, rfl⟩
    obtain ⟨record, hrec, hvin⟩ := syncRecords_recorded hr hm
    obtain ⟨last, hlast, hid, hd⟩ := hactive record.vehicleId (List.mem_map_of_mem hrec)
    have hb := (syncRecords_bindable free h hlisted hr record hrec).1
    have hb' := (syncRecords_bindable free h hlisted hr last hlast).1
    rw [hb.stable, hb'.stable] at hid
    obtain ⟨_, hsame⟩ := free.vehicle _ _ _ _ hb'.listed hb.listed hid
    refine ⟨_, _, hd, ?_⟩
    simp [VehicleDocument.identity, Database.mergeRecord, hb'.owned, hsame, hvin]
  case listed =>
    intro vehicleId data hd howner hvin
    by_cases hm : vehicleId ∈ records.map VehicleRecord.vehicleId
    · obtain ⟨record, hrec, _, hw⟩ := hactive vehicleId hm
      obtain rfl := Option.some.inj (hw.symm.trans hd)
      exact (mergeRecord_synced free h hlisted hr hrec _).2.2
    · obtain ⟨old, hold, rfl⟩ := hkept vehicleId data hm hd
      rw [markMissing_owner] at howner
      rw [markMissing_vin] at hvin
      exact absurd (listed_written free h hlisted hr hold howner hvin) hm
  case missing =>
    intro vehicleId data hd howner hconnection hvin
    by_cases hm : vehicleId ∈ records.map VehicleRecord.vehicleId
    · obtain ⟨record, hrec, _, hw⟩ := hactive vehicleId hm
      obtain rfl := Option.some.inj (hw.symm.trans hd)
      exact absurd (mergeRecord_synced free h hlisted hr hrec _).2.1 hvin
    · obtain ⟨old, hold, rfl⟩ := hkept vehicleId data hm hd
      rw [markMissing_owner] at howner
      rw [markMissing_connection] at hconnection
      simp [markMissing, howner, hconnection]
  case telemetry =>
    intro vehicleId data hd
    by_cases hm : vehicleId ∈ records.map VehicleRecord.vehicleId
    · obtain ⟨record, _, _, hw⟩ := hactive vehicleId hm
      rw [hd] at hw
      exact ⟨_, hw, mergeRecord_telemetry data record⟩
    · refine ⟨_, by rw [hrest vehicleId hm, hd]; rfl, markMissing_telemetry data⟩
  case created =>
    intro vehicleId data hnone hd
    have hm : vehicleId ∈ records.map VehicleRecord.vehicleId := by
      by_contra hm
      rw [hrest vehicleId hm, hnone] at hd
      cases hd
    obtain ⟨record, hrec, _, hw⟩ := hactive vehicleId hm
    rw [hnone] at hw
    obtain rfl := Option.some.inj (hw.symm.trans hd)
    obtain ⟨howner, hvin, _⟩ := mergeRecord_synced free h hlisted hr hrec none
    exact ⟨rfl, howner, hvin⟩
  case others =>
    intro vehicleId data howner
    by_cases hm : vehicleId ∈ records.map VehicleRecord.vehicleId
    · constructor
      · intro hd
        obtain ⟨record, hrec, _, hw⟩ := hactive vehicleId hm
        obtain rfl := Option.some.inj (hw.symm.trans hd)
        exact absurd (mergeRecord_synced free h hlisted hr hrec _).1 howner
      · intro hd
        exact absurd (written_listed free h hlisted hr hd hm).1 howner
    · constructor
      · intro hd
        obtain ⟨old, hold, rfl⟩ := hkept vehicleId data hm hd
        rw [markMissing_owner] at howner
        rw [markMissing_of_ne (.inl howner), hold]
      · intro hd
        rw [hrest vehicleId hm, hd, Option.map_some, markMissing_of_ne (.inl howner)]
  case elsewhere =>
    intro vehicleId data hd _ hconnection hvin
    have hm : vehicleId ∉ records.map VehicleRecord.vehicleId :=
      fun hm => hvin (written_listed free h hlisted hr hd hm).2
    rw [hrest vehicleId hm, hd, Option.map_some, markMissing_of_ne (.inr hconnection)]

/-- A sync updates exactly the documents it should, in every state of a history. -/
theorem syncVehicles_updates {db₀ : Database} {pre : List VehicleOperation}
    (hindex : ∀ id, db₀.vinIndex id = none) (hvehicles : ∀ id, db₀.vehicles id = none)
    (free : CollisionFree sha256Hex
      (Lists (pre ++ [.syncVehicles owner connectionId vehicles statuses])))
    (hs : (storeAfter sha256Hex db₀ pre).syncVehicles sha256Hex owner connectionId vehicles statuses =
      .ok (records,db')) :
    Synced owner connectionId vehicles (storeAfter sha256Hex db₀ pre) db' := by
  have empty : Mirrored sha256Hex
      (Lists (pre ++ [.syncVehicles owner connectionId vehicles statuses])) db₀ :=
    mirrored_empty hindex hvehicles
  refine syncVehicles_synced free (history_mirrored free empty (List.prefix_append _ _)) ?_ hs
  intro vehicle hm
  exact ⟨connectionId, vehicles, statuses, vehicle, by simp, hm, rfl⟩

section Witness

def otherVin : String := "5YJ3E1EA7KF000002"

/-- The digests of the texts hashed when one user lists two vehicles. -/
def fleetDigest (text : String) : String :=
  if text = otherVin then "09812f743d17184ae41ce86239c5359c769d2c75cff71cbb1c977f3c66d24baf"
  else if text = "user-1\x00" ++ otherVin then
    "d8d2106948d199fcf9e4bf4fe630ab6e7d075f6c5a843a2e7770e98ae72dd2e2"
  else vinDigest text

/-- A listing of the other vehicle, twice. -/
def relisted : List TeslaVehicle :=
  [{ vin := otherVin, teslaVehicleId := "2", displayName := none, state := none },
   { vin := otherVin, teslaVehicleId := "2", displayName := some "Spare", state := none }]

def fleetOperations : List VehicleOperation :=
  [listedBy "user-1",.syncVehicles "user-1" "conn_user-1" relisted (fun _ => none)]

theorem listed_fleet {owner vin : String} (h : Lists fleetOperations owner vin) :
    owner = "user-1" ∧ (vin = sharedVin ∨ vin = otherVin) := by
  obtain ⟨_, vehicles, _, vehicle, hm, hv, rfl⟩ := h
  simp only [fleetOperations, listedBy, List.mem_cons, List.not_mem_nil, or_false,
    VehicleOperation.syncVehicles.injEq] at hm
  rcases hm with ⟨rfl, _, rfl, _⟩ | ⟨rfl, _, rfl, _⟩
  · exact ⟨rfl, .inl (by simpa using congrArg TeslaVehicle.vin (List.mem_singleton.mp hv))⟩
  · simp only [relisted, List.mem_cons, List.not_mem_nil, or_false] at hv
    rcases hv with rfl | rfl
    · exact ⟨rfl, .inr rfl⟩
    · exact ⟨rfl, .inr rfl⟩

theorem fleetDigest_free : CollisionFree fleetDigest (Lists fleetOperations) := by
  constructor
  · intro owner owner' vin vin' h h' hsame
    rcases (listed_fleet h).2 with rfl | rfl <;> rcases (listed_fleet h').2 with rfl | rfl
    · rfl
    · revert hsame
      decide
    · revert hsame
      decide
    · rfl
  · intro owner owner' vin vin' h h' hsame
    obtain ⟨rfl, hvin⟩ := listed_fleet h
    obtain ⟨rfl, hvin'⟩ := listed_fleet h'
    refine ⟨rfl, ?_⟩
    rcases hvin with rfl | rfl <;> rcases hvin' with rfl | rfl
    · rfl
    · revert hsame
      decide
    · revert hsame
      decide
    · rfl

/-- A later listing that names one vehicle twice and leaves the other out. -/
theorem syncVehicles_updates_relisted :
    ∃ records db', (storeAfter fleetDigest emptyDatabase [listedBy "user-1"]).syncVehicles fleetDigest
        "user-1" "conn_user-1" relisted (fun _ => none) = .ok (records,db') ∧
      records.length = 2 ∧
      Synced "user-1" "conn_user-1" relisted
        (storeAfter fleetDigest emptyDatabase [listedBy "user-1"]) db' :=
  ⟨_, _, rfl, by decide, syncVehicles_updates (fun _ => rfl) (fun _ => rfl) fleetDigest_free rfl⟩

end Witness

end Woodhouse.Gateway
