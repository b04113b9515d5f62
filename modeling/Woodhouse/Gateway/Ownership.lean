import Woodhouse.Gateway.TelemetryState
import Mathlib.Data.List.Infix

namespace Woodhouse.Gateway

/-- The operations that write the vehicle collections. The telemetry save is its
check and its update, which other operations may come between. -/
inductive VehicleOperation where
  | syncVehicles (ownerUserId connectionId : String) (vehicles : List TeslaVehicle)
      (statuses : String → Option FleetStatus)
  | updateFleetStatus (ownerUserId vehicleId : String) (status : FleetStatus)
  | checkTelemetryVehicle (ownerUserId vehicleId : String)
  | updateTelemetry (vehicleId : String) (state : TelemetryConfigurationState)

variable (sha256Hex : String → String)

def VehicleOperation.run (db : Database) : VehicleOperation → Except Exc Database
  | .syncVehicles owner connectionId vehicles statuses =>
    (db.syncVehicles sha256Hex owner connectionId vehicles statuses).map Prod.snd
  | .updateFleetStatus owner vehicleId status =>
    (db.updateFleetStatus owner vehicleId status).map Prod.snd
  | .checkTelemetryVehicle owner vehicleId => (db.getVehicle owner vehicleId).map (fun _ => db)
  | .updateTelemetry vehicleId state => db.updateTelemetry vehicleId state

/-- An operation that raises leaves every document as it was. -/
def VehicleOperation.apply (db : Database) (operation : VehicleOperation) : Database :=
  match operation.run sha256Hex db with
  | .ok db' => db'
  | .error _ => db

/-- The collections after a sequence of operations. -/
def storeAfter (db₀ : Database) (operations : List VehicleOperation) : Database :=
  operations.foldl (VehicleOperation.apply sha256Hex) db₀

theorem storeAfter_append (db₀ : Database) (pre post : List VehicleOperation) :
    storeAfter sha256Hex db₀ (pre ++ post) =
      storeAfter sha256Hex (storeAfter sha256Hex db₀ pre) post :=
  List.foldl_append

/-- A user whose vehicle listing names a VIN. -/
def Lists (operations : List VehicleOperation) (owner vin : String) : Prop :=
  ∃ connectionId vehicles statuses vehicle,
    VehicleOperation.syncVehicles owner connectionId vehicles statuses ∈ operations ∧
    vehicle ∈ vehicles ∧ vehicle.vin = vin

/-- The document ids hashed in a history do not collide. -/
structure CollisionFree (lists : String → String → Prop) : Prop where
  index : ∀ owner owner' vin vin', lists owner vin → lists owner' vin' →
    sha256Hex vin = sha256Hex vin' → vin = vin'
  vehicle : ∀ owner owner' vin vin', lists owner vin → lists owner' vin' →
    stableVehicleId sha256Hex owner vin = stableVehicleId sha256Hex owner' vin' →
    owner = owner' ∧ vin = vin'

theorem map_eq_ok {ε α β : Type} {x : Except ε α} {f : α → β} {b : β} (h : x.map f = .ok b) :
    ∃ a, x = .ok a ∧ f a = b := by
  cases x with
  | error e => cases h
  | ok a => exact ⟨a, rfl, Except.ok.inj h⟩

def VehicleDocument.identity (data : VehicleDocument) : String × String :=
  (data.ownerUserId, data.vin)

namespace Database

/-- The owner and the VIN of a vehicle document. -/
def identity (db : Database) (vehicleId : String) : Option (String × String) :=
  (db.vehicles vehicleId).map VehicleDocument.identity

end Database

/-- Index entries and vehicle documents mirror each other. -/
structure Mirrored (lists : String → String → Prop) (db : Database) : Prop where
  indexed : ∀ id entry, db.vinIndex id = some entry →
    ∃ vin, lists entry.ownerUserId vin ∧ id = sha256Hex vin ∧
      entry.vehicleId = stableVehicleId sha256Hex entry.ownerUserId vin ∧
      db.identity entry.vehicleId = some (entry.ownerUserId, vin)
  bound : ∀ vehicleId owner vin, db.identity vehicleId = some (owner, vin) →
    lists owner vin ∧ vehicleId = stableVehicleId sha256Hex owner vin ∧
      db.vinIndex (sha256Hex vin) = some { ownerUserId := owner, vehicleId }

variable {sha256Hex} {lists : String → String → Prop} {db db' : Database}

/-- Writes that keep the index and the identities keep the mirror. -/
theorem Mirrored.relabelled (h : Mirrored sha256Hex lists db) (hindex : db'.vinIndex = db.vinIndex)
    (hidentity : db'.identity = db.identity) : Mirrored sha256Hex lists db' := by
  constructor
  · intro id entry he
    rw [hindex] at he
    rw [hidentity]
    exact h.indexed id entry he
  · intro vehicleId owner vin hd
    rw [hidentity] at hd
    rw [hindex]
    exact h.bound vehicleId owner vin hd

/-- A write of a document with the identity it had. -/
theorem identity_setVehicle {vehicleId : String} {data data' : VehicleDocument}
    (hd : db.vehicles vehicleId = some data) (hsame : data'.identity = data.identity) :
    (db.setVehicle vehicleId data').identity = db.identity := by
  funext id
  unfold Database.identity Database.setVehicle
  by_cases hid : id = vehicleId
  · subst hid
    simp [hd, hsame]
  · simp [Function.update_of_ne hid]

theorem markNotReturned_identity (db written : Database) (owner connectionId : String)
    (active : List String) :
    (db.markNotReturned owner connectionId active written).identity = written.identity := by
  funext id
  unfold Database.identity Database.markNotReturned
  dsimp only
  split
  · rfl
  · split
    · rw [Option.map_map]
      rfl
    · rfl

section Bind
variable {owner : String}

/-- A record whose VIN is free or already the owner's. -/
structure Bindable (sha256Hex : String → String) (lists : String → String → Prop) (owner : String)
    (db : Database) (record : VehicleRecord) : Prop where
  owned : record.ownerUserId = owner
  listed : lists owner record.vin
  stable : record.vehicleId = stableVehicleId sha256Hex owner record.vin
  free : db.vinIndex (sha256Hex record.vin) = none ∨
    db.vinIndex (sha256Hex record.vin) = some { ownerUserId := owner, vehicleId := record.vehicleId }

theorem bindVehicle_identity (db : Database) (record : VehicleRecord) :
    (db.bindVehicle sha256Hex record).identity =
      Function.update db.identity record.vehicleId (some (record.ownerUserId, record.vin)) := by
  funext id
  unfold Database.identity Database.bindVehicle
  by_cases hid : id = record.vehicleId
  · subst hid
    simp [Database.mergeRecord, VehicleDocument.identity]
  · simp [Function.update_of_ne hid]

theorem Bindable.mirrored {record : VehicleRecord} (free : CollisionFree sha256Hex lists)
    (hr : Bindable sha256Hex lists owner db record) (h : Mirrored sha256Hex lists db) :
    Mirrored sha256Hex lists (db.bindVehicle sha256Hex record) := by
  obtain ⟨howned, hlisted, hstable, hfree⟩ := hr
  constructor
  · intro id entry he
    rw [bindVehicle_identity]
    by_cases hid : id = sha256Hex record.vin
    · subst hid
      obtain rfl : _ = entry := by simpa [Database.bindVehicle] using he
      exact ⟨record.vin, howned ▸ hlisted, rfl, howned ▸ hstable, by simp⟩
    · obtain ⟨vin, hl, rfl, hs, hd⟩ := h.indexed id entry (by
        simpa [Database.bindVehicle, Function.update_of_ne hid] using he)
      refine ⟨vin, hl, rfl, hs, ?_⟩
      by_cases hv : entry.vehicleId = record.vehicleId
      · -- the same vehicle id is the same VIN
        rw [hs, hstable] at hv
        obtain ⟨_, rfl⟩ := free.vehicle _ _ _ _ hl hlisted hv
        exact absurd rfl hid
      · rwa [Function.update_of_ne hv]
  · intro vehicleId owner' vin hd
    rw [bindVehicle_identity] at hd
    by_cases hv : vehicleId = record.vehicleId
    · subst hv
      obtain ⟨rfl, rfl⟩ : record.ownerUserId = owner' ∧ record.vin = vin := by simpa using hd
      exact ⟨howned ▸ hlisted, howned ▸ hstable, by simp [Database.bindVehicle]⟩
    · rw [Function.update_of_ne hv] at hd
      obtain ⟨hl, hs, hi⟩ := h.bound vehicleId owner' vin hd
      refine ⟨hl, hs, ?_⟩
      by_cases hid : sha256Hex vin = sha256Hex record.vin
      · rw [hid] at hi
        rcases hfree with hnone | hsome
        · rw [hnone] at hi
          cases hi
        · rw [hsome] at hi
          obtain rfl := congrArg VinIndexDocument.vehicleId (Option.some.inj hi)
          exact absurd rfl hv
      · simpa [Database.bindVehicle, Function.update_of_ne hid] using hi

/-- Binding one record keeps every entry, and adds none but the owner's. -/
theorem Bindable.index {record : VehicleRecord} (hr : Bindable sha256Hex lists owner db record)
    (id : String) (entry : VinIndexDocument) :
    (db.vinIndex id = some entry → (db.bindVehicle sha256Hex record).vinIndex id = some entry) ∧
    ((db.bindVehicle sha256Hex record).vinIndex id = some entry →
      db.vinIndex id = some entry ∨ id = sha256Hex record.vin ∧ entry.ownerUserId = owner) := by
  obtain ⟨howned, hlisted, hstable, hfree⟩ := hr
  by_cases hid : id = sha256Hex record.vin
  · subst hid
    constructor
    · intro he
      rcases hfree with hnone | hsome
      · rw [hnone] at he
        cases he
      · rw [hsome] at he
        simp [Database.bindVehicle, howned, ← Option.some.inj he]
    · intro he
      obtain rfl : _ = entry := by simpa [Database.bindVehicle] using he
      exact .inr ⟨rfl, howned⟩
  · simp only [Database.bindVehicle, Function.update_of_ne hid]
    exact ⟨fun he => he, fun he => .inl he⟩

/-- A record stays bindable while others of the same owner are bound. -/
theorem Bindable.after {record other : VehicleRecord} (free : CollisionFree sha256Hex lists)
    (hr : Bindable sha256Hex lists owner db record) (ho : Bindable sha256Hex lists owner db other) :
    Bindable sha256Hex lists owner (db.bindVehicle sha256Hex other) record := by
  refine ⟨hr.owned, hr.listed, hr.stable, ?_⟩
  by_cases hid : sha256Hex record.vin = sha256Hex other.vin
  · have hvin := free.index _ _ _ _ hr.listed ho.listed hid
    refine .inr ?_
    simp [Database.bindVehicle, ho.owned, ho.stable, hr.stable, hvin]
  · simpa [Database.bindVehicle, Function.update_of_ne hid] using hr.free

theorem bindVehicles_mirrored {records : List VehicleRecord} (free : CollisionFree sha256Hex lists)
    (hr : ∀ record ∈ records, Bindable sha256Hex lists owner db record)
    (h : Mirrored sha256Hex lists db) :
    Mirrored sha256Hex lists (records.foldl (Database.bindVehicle sha256Hex) db) := by
  induction records generalizing db with
  | nil => exact h
  | cons record rest ih =>
    have hfirst := hr record (List.mem_cons_self ..)
    refine ih ?_ (hfirst.mirrored free h)
    intro other hm
    exact (hr other (List.mem_cons_of_mem _ hm)).after free hfirst

theorem bindVehicles_index {records : List VehicleRecord} (free : CollisionFree sha256Hex lists)
    (hr : ∀ record ∈ records, Bindable sha256Hex lists owner db record)
    (id : String) (entry : VinIndexDocument) :
    (db.vinIndex id = some entry →
      (records.foldl (Database.bindVehicle sha256Hex) db).vinIndex id = some entry) ∧
    ((records.foldl (Database.bindVehicle sha256Hex) db).vinIndex id = some entry →
      db.vinIndex id = some entry ∨
        (∃ record ∈ records, id = sha256Hex record.vin) ∧ entry.ownerUserId = owner) := by
  induction records generalizing db with
  | nil => exact ⟨fun he => he, fun he => .inl he⟩
  | cons record rest ih =>
    have hfirst := hr record (List.mem_cons_self ..)
    obtain ⟨hkeep, hnew⟩ := hfirst.index id entry
    obtain ⟨hkeeps, hnews⟩ := ih (fun other hm =>
      (hr other (List.mem_cons_of_mem _ hm)).after free hfirst)
    refine ⟨fun he => hkeeps (hkeep he), ?_⟩
    intro he
    rcases hnews he with hold | ⟨⟨other, hm, hid⟩, hown⟩
    · rcases hnew hold with hold | ⟨hid, hown⟩
      · exact .inl hold
      · exact .inr ⟨⟨record, List.mem_cons_self .., hid⟩, hown⟩
    · exact .inr ⟨⟨other, List.mem_cons_of_mem _ hm, hid⟩, hown⟩

/-- The ids read for a listing are the stable ones, and no listed VIN is another user's. -/
theorem resolveVehicleId_stable {vin vehicleId : String} (free : CollisionFree sha256Hex lists)
    (h : Mirrored sha256Hex lists db) (hlisted : lists owner vin)
    (hr : db.resolveVehicleId sha256Hex owner vin = .ok vehicleId) :
    vehicleId = stableVehicleId sha256Hex owner vin ∧
      (db.vinIndex (sha256Hex vin) = none ∨
        db.vinIndex (sha256Hex vin) = some { ownerUserId := owner, vehicleId }) := by
  unfold Database.resolveVehicleId at hr
  split at hr
  · rename_i hnone
    obtain rfl := Except.ok.inj hr
    exact ⟨rfl, .inl hnone⟩
  · rename_i data hd
    split at hr
    · cases hr
    · rename_i howner
      split at hr
      · cases hr
      · obtain rfl := Except.ok.inj hr
        obtain rfl := not_not.mp howner
        obtain ⟨vin', hl, hid, hs, _⟩ := h.indexed _ data hd
        obtain rfl := free.index _ _ _ _ hlisted hl hid
        exact ⟨hs, .inr hd⟩

theorem syncRecords_bindable {connectionId : String} {statuses : String → Option FleetStatus}
    {vehicles : List TeslaVehicle} {records : List VehicleRecord}
    (free : CollisionFree sha256Hex lists) (h : Mirrored sha256Hex lists db)
    (hlisted : ∀ vehicle ∈ vehicles, lists owner vehicle.vin)
    (hr : db.syncRecords sha256Hex owner connectionId statuses vehicles = .ok records) :
    ∀ record ∈ records, Bindable sha256Hex lists owner db record ∧
      ∃ vehicle ∈ vehicles, record.vin = vehicle.vin := by
  induction vehicles generalizing records with
  | nil =>
    obtain rfl := Except.ok.inj hr
    simp
  | cons vehicle rest ih =>
    unfold Database.syncRecords at hr
    split at hr
    · cases hr
    · rename_i vehicleId hid
      split at hr
      · cases hr
      · rename_i others hothers
        obtain rfl := Except.ok.inj hr
        have hl := hlisted vehicle (List.mem_cons_self ..)
        obtain ⟨hstable, hfree⟩ := resolveVehicleId_stable free h hl hid
        have hrest := ih (fun v hm => hlisted v (List.mem_cons_of_mem _ hm)) hothers
        intro record hm
        rcases List.mem_cons.mp hm with rfl | hm
        · exact ⟨⟨rfl, hl, hstable, hfree⟩, vehicle, List.mem_cons_self .., rfl⟩
        · obtain ⟨hb, v, hv, hvin⟩ := hrest record hm
          exact ⟨hb, v, List.mem_cons_of_mem _ hv, hvin⟩

end Bind

section Operations

/-- Who an operation binds a VIN index entry for. -/
def BoundBy (sha256Hex : String → String) (operation : VehicleOperation) (id : String)
    (owner : String) : Prop :=
  ∃ connectionId vehicles statuses vehicle,
    operation = .syncVehicles owner connectionId vehicles statuses ∧ vehicle ∈ vehicles ∧
    id = sha256Hex vehicle.vin

/-- What one operation does to the index and to the identities. -/
structure Preserves (sha256Hex : String → String) (lists : String → String → Prop)
    (operation : VehicleOperation) (db db' : Database) : Prop where
  mirrored : Mirrored sha256Hex lists db'
  keeps : ∀ id entry, db.vinIndex id = some entry → db'.vinIndex id = some entry
  binds : ∀ id entry, db'.vinIndex id = some entry →
    db.vinIndex id = some entry ∨ BoundBy sha256Hex operation id entry.ownerUserId

theorem Preserves.relabels {operation : VehicleOperation} (h : Mirrored sha256Hex lists db)
    (hindex : db'.vinIndex = db.vinIndex) (hidentity : db'.identity = db.identity) :
    Preserves sha256Hex lists operation db db' := by
  refine ⟨h.relabelled hindex hidentity, ?_, ?_⟩
  · intro id entry he
    rwa [hindex]
  · intro id entry he
    rw [hindex] at he
    exact .inl he

theorem syncVehicles_preserves {owner connectionId : String} {vehicles : List TeslaVehicle}
    {statuses : String → Option FleetStatus} {records : List VehicleRecord}
    (free : CollisionFree sha256Hex lists) (h : Mirrored sha256Hex lists db)
    (hlisted : ∀ vehicle ∈ vehicles, lists owner vehicle.vin)
    (hs : db.syncVehicles sha256Hex owner connectionId vehicles statuses = .ok (records, db')) :
    Preserves sha256Hex lists (.syncVehicles owner connectionId vehicles statuses) db db' := by
  unfold Database.syncVehicles at hs
  split at hs
  · cases hs
  · rename_i found hfound
    obtain ⟨rfl, rfl⟩ := Prod.mk.inj (Except.ok.inj hs)
    have hbind := syncRecords_bindable free h hlisted hfound
    have hindex : ∀ id entry, _ := fun id entry =>
      bindVehicles_index free (fun record hm => (hbind record hm).1) id entry
    refine ⟨?_, fun id entry => (hindex id entry).1, ?_⟩
    · exact (bindVehicles_mirrored free (fun record hm => (hbind record hm).1) h).relabelled rfl
        (markNotReturned_identity ..)
    · intro id entry he
      refine ((hindex id entry).2 he).imp_right ?_
      rintro ⟨⟨record, hm, hid⟩, rfl⟩
      obtain ⟨_, vehicle, hv, hvin⟩ := hbind record hm
      exact ⟨connectionId, vehicles, statuses, vehicle, rfl, hv, hvin ▸ hid⟩

theorem updateFleetStatus_identity {owner vehicleId : String} {status : FleetStatus}
    {record : VehicleRecord} (h : db.updateFleetStatus owner vehicleId status = .ok (record, db')) :
    db'.vinIndex = db.vinIndex ∧ db'.identity = db.identity := by
  unfold Database.updateFleetStatus at h
  split at h
  · cases h
  · rename_i data hd
    split at h
    · cases h
    · split at h
      · cases h
      · obtain ⟨_, rfl⟩ := Prod.mk.inj (Except.ok.inj h)
        exact ⟨rfl, identity_setVehicle hd rfl⟩

theorem updateTelemetry_identity {vehicleId : String} {state : TelemetryConfigurationState}
    (h : db.updateTelemetry vehicleId state = .ok db') :
    db'.vinIndex = db.vinIndex ∧ db'.identity = db.identity := by
  unfold Database.updateTelemetry at h
  split at h
  · cases h
  · rename_i data hd
    obtain rfl := Except.ok.inj h
    exact ⟨rfl, identity_setVehicle hd rfl⟩

theorem run_preserves {operation : VehicleOperation} (free : CollisionFree sha256Hex lists)
    (h : Mirrored sha256Hex lists db)
    (hlisted : ∀ owner vin, Lists [operation] owner vin → lists owner vin)
    (hrun : operation.run sha256Hex db = .ok db') :
    Preserves sha256Hex lists operation db db' := by
  cases operation with
  | syncVehicles owner connectionId vehicles statuses =>
    obtain ⟨⟨records, _⟩, hs, rfl⟩ := map_eq_ok hrun
    refine syncVehicles_preserves free h ?_ hs
    intro vehicle hm
    exact hlisted owner vehicle.vin ⟨connectionId, vehicles, statuses, vehicle, by simp, hm, rfl⟩
  | updateFleetStatus owner vehicleId status =>
    obtain ⟨⟨record, _⟩, hs, rfl⟩ := map_eq_ok hrun
    obtain ⟨hindex, hidentity⟩ := updateFleetStatus_identity hs
    exact .relabels h hindex hidentity
  | checkTelemetryVehicle owner vehicleId =>
    obtain ⟨_, _, rfl⟩ := map_eq_ok hrun
    exact .relabels h rfl rfl
  | updateTelemetry vehicleId state =>
    obtain ⟨hindex, hidentity⟩ := updateTelemetry_identity hrun
    exact .relabels h hindex hidentity

theorem apply_preserves {operation : VehicleOperation} (free : CollisionFree sha256Hex lists)
    (h : Mirrored sha256Hex lists db)
    (hlisted : ∀ owner vin, Lists [operation] owner vin → lists owner vin) :
    Preserves sha256Hex lists operation db (operation.apply sha256Hex db) := by
  unfold VehicleOperation.apply
  split
  · rename_i hrun
    exact run_preserves free h hlisted hrun
  · exact .relabels h rfl rfl

end Operations

section Histories
variable {db₀ : Database} {operations pre post : List VehicleOperation}

theorem storeAfter_snoc (operation : VehicleOperation) :
    storeAfter sha256Hex db₀ (pre ++ [operation]) =
      operation.apply sha256Hex (storeAfter sha256Hex db₀ pre) := by
  rw [storeAfter_append]
  rfl

theorem mirrored_empty (hindex : ∀ id, db₀.vinIndex id = none) (hvehicles : ∀ id, db₀.vehicles id = none) :
    Mirrored sha256Hex lists db₀ := by
  constructor
  · intro id entry he
    rw [hindex] at he
    cases he
  · intro vehicleId owner vin hd
    unfold Database.identity at hd
    rw [hvehicles] at hd
    cases hd

variable (free : CollisionFree sha256Hex (Lists operations))
  (empty : Mirrored sha256Hex (Lists operations) db₀)
include free empty

theorem history_mirrored (hpre : pre <+: operations) :
    Mirrored sha256Hex (Lists operations) (storeAfter sha256Hex db₀ pre) := by
  induction pre using List.reverseRecOn with
  | nil => exact empty
  | append_singleton pre operation ih =>
    rw [storeAfter_snoc]
    refine (apply_preserves free (ih ((List.prefix_append _ _).trans hpre)) ?_).mirrored
    rintro owner vin ⟨connectionId, vehicles, statuses, vehicle, hm, hv, hvin⟩
    exact ⟨connectionId, vehicles, statuses, vehicle, hpre.subset (List.mem_append_right _ hm), hv, hvin⟩

theorem step_preserves {operation : VehicleOperation} (hpre : pre ++ [operation] <+: operations) :
    Preserves sha256Hex (Lists operations) operation (storeAfter sha256Hex db₀ pre)
      (storeAfter sha256Hex db₀ (pre ++ [operation])) := by
  rw [storeAfter_snoc]
  refine apply_preserves free (history_mirrored free empty ((List.prefix_append _ _).trans hpre)) ?_
  rintro owner vin ⟨connectionId, vehicles, statuses, vehicle, hm, hv, hvin⟩
  exact ⟨connectionId, vehicles, statuses, vehicle, hpre.subset (List.mem_append_right _ hm), hv, hvin⟩

/-- An index entry never changes. -/
theorem index_kept (hpost : pre ++ post <+: operations) {id : String} {entry : VinIndexDocument}
    (he : (storeAfter sha256Hex db₀ pre).vinIndex id = some entry) :
    (storeAfter sha256Hex db₀ (pre ++ post)).vinIndex id = some entry := by
  induction post using List.reverseRecOn with
  | nil => simpa using he
  | append_singleton post operation ih =>
    rw [← List.append_assoc] at hpost ⊢
    exact (step_preserves free empty hpost).keeps id entry
      (ih ((List.prefix_append _ _).trans hpost))

end Histories

/-- The first operation of a history that binds an index entry, and its user. -/
def FirstBinds (sha256Hex : String → String) (db₀ : Database) (operations : List VehicleOperation)
    (id owner : String) : Prop :=
  ∃ pre operation post, operations = pre ++ operation :: post ∧
    (storeAfter sha256Hex db₀ pre).vinIndex id = none ∧
    (storeAfter sha256Hex db₀ (pre ++ [operation])).vinIndex id ≠ none ∧
    BoundBy sha256Hex operation id owner

theorem firstBinds_of_entry {db₀ : Database} {operations pre : List VehicleOperation}
    (free : CollisionFree sha256Hex (Lists operations))
    (empty : Mirrored sha256Hex (Lists operations) db₀) (hnone : ∀ id, db₀.vinIndex id = none)
    (hpre : pre <+: operations) {id : String} {entry : VinIndexDocument}
    (he : (storeAfter sha256Hex db₀ pre).vinIndex id = some entry) :
    FirstBinds sha256Hex db₀ operations id entry.ownerUserId := by
  induction pre using List.reverseRecOn with
  | nil =>
    rw [show (storeAfter sha256Hex db₀ []).vinIndex id = none from hnone id] at he
    cases he
  | append_singleton pre operation ih =>
    cases hold : (storeAfter sha256Hex db₀ pre).vinIndex id with
    | some old =>
      have hkeep := (step_preserves free empty hpre).keeps id old hold
      obtain rfl := Option.some.inj (hkeep.symm.trans he)
      exact ih ((List.prefix_append _ _).trans hpre) hold
    | none =>
      rcases (step_preserves free empty hpre).binds id entry he with h | hbound
      · rw [hold] at h
        cases h
      · obtain ⟨post, rfl⟩ := hpre
        refine ⟨pre, operation, post, by simp, hold, ?_, hbound⟩
        rw [he]
        simp

end Woodhouse.Gateway
