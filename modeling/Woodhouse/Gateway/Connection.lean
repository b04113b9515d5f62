import Woodhouse.Gateway.Requests

namespace Woodhouse.Gateway
open Effects

/-- How one answered call relates the user's connection document before and after
it: only four calls write it, one reads it, every other call leaves it alone. -/
inductive DocStep (user : String) :
    OnboardingEvent → Option ConnectionDocument → Option ConnectionDocument → Prop
  | save (old tokens baseUrl connection doc)
      (tokensStored : doc.encryptedTokens = tokens)
      (version : doc.tokenVersion = (old.map ConnectionDocument.tokenVersion).getD 0 + 1) :
      DocStep user ⟨.saveConnection user tokens baseUrl, .ok connection⟩ old (some doc)
  | rotate (data tokens connection) (doc : ConnectionDocument)
      (tokensStored : doc.encryptedTokens = tokens)
      (version : doc.tokenVersion = data.tokenVersion + 1)
      (status : doc.status = .connected) :
      DocStep user ⟨.rotateTokens user data.tokenVersion tokens, .ok connection⟩ (some data) (some doc)
  | complete (data region baseUrl) :
      DocStep user ⟨.updateCompleted user region baseUrl, .ok ()⟩ (some data)
        (some { data with region := some region, baseUrl, status := .connected })
  | mark (data) :
      DocStep user ⟨.markReauthorizationRequired user, .ok ()⟩ (some data)
        (some { data with status := .reauthorizationRequired })
  | read (data connection) (tokensRead : connection.tokens = data.encryptedTokens)
      (version : connection.tokenVersion = data.tokenVersion)
      (status : connection.status = data.status) :
      DocStep user ⟨.getConnection user, .ok connection⟩ (some data) (some data)
  | other (e doc) (noWrite : writes user e = none) (noRead : reads user e = none)
      (noMark : e ≠ ⟨.markReauthorizationRequired user, .ok ()⟩) : DocStep user e doc doc

theorem connectionFromData_ok {owner : String} {data : ConnectionDocument} {c : TeslaConnection}
    (h : Database.connectionFromData owner data = .ok c) :
    c.tokens = data.encryptedTokens ∧ c.tokenVersion = data.tokenVersion ∧
      c.status = data.status ∧ data.ownerUserId = owner := by
  unfold Database.connectionFromData at h
  split at h
  · cases h
  · rename_i hn
    obtain rfl := Except.ok.inj h
    exact ⟨rfl, rfl, rfl, by simpa using hn⟩

section Transactions
variable {db : Database} {user owner : String}

theorem getConnection_ok {c : TeslaConnection} (h : db.getConnection owner = .ok c) :
    ∃ data, db.connections owner = some data ∧
      Database.connectionFromData owner data = .ok c := by
  unfold Database.getConnection at h
  split at h
  · cases h
  · rename_i data hd
    exact ⟨data, hd, h⟩

theorem setConnection_other (doc : ConnectionDocument) (hne : owner ≠ user) :
    (db.setConnection owner doc).connections user = db.connections user := by
  simp [Database.setConnection, Function.update_of_ne (Ne.symm hne)]

theorem rotateTokens_ok {v : Nat} {t : TokenSet} {c : TeslaConnection} {db' : Database}
    (h : db.rotateTokens owner v t = .ok (c,db')) :
    ∃ data doc, db.connections owner = some data ∧ data.tokenVersion = v ∧
      doc.encryptedTokens = t ∧ doc.tokenVersion = v + 1 ∧ doc.status = .connected ∧
      db' = db.setConnection owner doc := by
  unfold Database.rotateTokens at h
  split at h
  · cases h
  · rename_i data hd
    split at h
    · cases h
    · split at h
      · cases h
      · rename_i hv _
        dsimp only at h
        split at h
        · cases h
        · obtain ⟨rfl, rfl⟩ := Prod.mk.inj (Except.ok.inj h)
          exact ⟨data, _, hd, by simpa using hv, rfl, rfl, rfl, rfl⟩

/-- A rotation whose expected version is not the stored one loses. -/
theorem rotateTokens_conflict {v : Nat} {t : TokenSet} {data : ConnectionDocument}
    (hd : db.connections owner = some data) (hv : data.tokenVersion ≠ v) :
    db.rotateTokens owner v t =
      .error (.concurrentTokenRotation "Tesla token was already rotated") := by
  simp [Database.rotateTokens, hd, hv]

theorem markReauthorizationRequired_ok {db' : Database}
    (h : db.markReauthorizationRequired owner = .ok db') :
    ∃ data, db.connections owner = some data ∧
      db' = db.setConnection owner { data with status := .reauthorizationRequired } := by
  unfold Database.markReauthorizationRequired at h
  split at h
  · cases h
  · rename_i data hd
    exact ⟨data, hd, (Except.ok.inj h).symm⟩

theorem updateCompleted_ok {region baseUrl : String} {db' : Database}
    (h : db.updateCompleted owner region baseUrl = .ok db') :
    ∃ data, db.connections owner = some data ∧
      db' = db.setConnection owner
        { data with region := some region, baseUrl, status := .connected } := by
  unfold Database.updateCompleted at h
  split at h
  · cases h
  · rename_i data hd
    exact ⟨data, hd, (Except.ok.inj h).symm⟩

theorem consumeState_connections {sha256Hex : String → String} {state : String} {now : Int}
    {p : PendingAuthorization} {db' : Database}
    (h : db.consumeState sha256Hex state now = .ok (p,db')) :
    db'.connections = db.connections := by
  unfold Database.consumeState at h
  split at h
  · cases h
  · split at h
    · cases h
    · split at h
      · cases h
      · split at h
        · cases h
        · obtain ⟨rfl, rfl⟩ := Prod.mk.inj (Except.ok.inj h)
          rfl

theorem bindVehicles_connections (sha256Hex : String → String) (records : List VehicleRecord)
    (db : Database) :
    (records.foldl (Database.bindVehicle sha256Hex) db).connections = db.connections := by
  induction records generalizing db with
  | nil => rfl
  | cons r rs ih => exact ih _

theorem syncVehicles_connections {sha256Hex : String → String} {connectionId : String}
    {vehicles : List TeslaVehicle} {statuses : String → Option FleetStatus}
    {records : List VehicleRecord} {db' : Database}
    (h : db.syncVehicles sha256Hex owner connectionId vehicles statuses = .ok (records,db')) :
    db'.connections = db.connections := by
  unfold Database.syncVehicles at h
  split at h
  · cases h
  · obtain ⟨rfl, rfl⟩ := Prod.mk.inj (Except.ok.inj h)
    exact bindVehicles_connections sha256Hex _ db

theorem updateFleetStatus_connections {vehicleId : String} {status : FleetStatus}
    {record : VehicleRecord} {db' : Database}
    (h : db.updateFleetStatus owner vehicleId status = .ok (record,db')) :
    db'.connections = db.connections := by
  unfold Database.updateFleetStatus at h
  split at h
  · cases h
  · split at h
    · cases h
    · split at h
      · cases h
      · obtain ⟨rfl, rfl⟩ := Prod.mk.inj (Except.ok.inj h)
        rfl

end Transactions

theorem commit_eq {α : Type} {w w' : World} {x : Except Exc (α × Database)} {r : Except Exc α}
    (h : w.commit x = (r,w')) :
    (∃ a db, x = .ok (a,db) ∧ r = .ok a ∧ w' = { w with db }) ∨
    (∃ e, x = .error e ∧ r = .error e ∧ w' = w) := by
  unfold World.commit at h
  split at h
  · obtain ⟨rfl, rfl⟩ := Prod.mk.inj h
    exact .inl ⟨_, _, rfl, rfl, rfl⟩
  · obtain ⟨rfl, rfl⟩ := Prod.mk.inj h
    exact .inr ⟨_, rfl, rfl, rfl⟩

theorem commitUnit_eq {w w' : World} {x : Except Exc Database} {r : Except Exc Unit}
    (h : w.commitUnit x = (r,w')) :
    (∃ db, x = .ok db ∧ r = .ok () ∧ w' = { w with db }) ∨
    (∃ e, x = .error e ∧ r = .error e ∧ w' = w) := by
  unfold World.commitUnit at h
  split at h
  · obtain ⟨rfl, rfl⟩ := Prod.mk.inj h
    exact .inl ⟨_, rfl, rfl, rfl⟩
  · obtain ⟨rfl, rfl⟩ := Prod.mk.inj h
    exact .inr ⟨_, rfl, rfl, rfl⟩

/-- A call that raises leaves the connection document alone. -/
theorem docStep_error (user : String) (call : Call) (e : Exc) (doc : Option ConnectionDocument) :
    DocStep user ⟨call, .error e⟩ doc doc := by
  refine .other _ _ ?_ ?_ ?_
  · cases call <;> rfl
  · cases call <;> rfl
  · intro he
    cases he

/-- The calls that concern another user's connection, or none. -/
def Call.concerns (user : String) : Call → Bool
  | .getConnection owner => owner = user
  | .saveConnection owner _ _ => owner = user
  | .updateCompleted owner _ _ => owner = user
  | .rotateTokens owner _ _ => owner = user
  | .markReauthorizationRequired owner => owner = user
  | _ => false

theorem docStep_unconcerned {user : String} {call : Call} (hc : call.concerns user = false)
    (r : Except Exc call.Ret) (doc : Option ConnectionDocument) : DocStep user ⟨call,r⟩ doc doc := by
  refine .other _ _ ?_ ?_ ?_
  · cases call <;> cases r <;> simp_all [Call.concerns, writes]
  · cases call <;> cases r <;> simp_all [Call.concerns, reads]
  · intro he
    obtain rfl := (Event.mk.inj he).1
    simp [Call.concerns] at hc

theorem failure_step {sha256Hex : String → String} {w w' : World} {call : Call} {e : Exc}
    {r : Except Exc call.Ret} (does : onboardingMachine sha256Hex w call (.failure e) = some (r,w')) :
    r = .error e ∧ w' = w ∧ call.canRaise e = true := by
  simp only [onboardingMachine] at does
  split at does
  · rename_i hr
    obtain ⟨rfl, rfl⟩ := Prod.mk.inj (Option.some.inj does)
    exact ⟨rfl, rfl, hr⟩
  · cases does

theorem docStep_concerned {sha256Hex : String → String} {user : String} {w w' : World} {call : Call}
    {choice : Choice} {r : Except Exc call.Ret} (hc : call.concerns user = true)
    (does : onboardingMachine sha256Hex w call choice = some (r,w')) :
    DocStep user ⟨call,r⟩ (w.db.connections user) (w'.db.connections user) := by
  cases choice with
  | failure e =>
    obtain ⟨rfl, rfl, _⟩ := failure_step does
    exact docStep_error _ _ _ _
  | success =>
    cases call with
    | getConnection owner =>
      obtain rfl : owner = user := by simpa [Call.concerns] using hc
      obtain ⟨hr, rfl⟩ := Prod.mk.inj (Option.some.inj does)
      cases r with
      | error e => exact docStep_error _ _ _ _
      | ok c =>
        obtain ⟨data, hd, hf⟩ := getConnection_ok hr
        obtain ⟨ht, hv, hs, _⟩ := connectionFromData_ok hf
        rw [hd]
        exact .read data c ht hv hs
    | updateCompleted owner region baseUrl =>
      obtain rfl : owner = user := by simpa [Call.concerns] using hc
      rcases commitUnit_eq (Option.some.inj does) with ⟨db, hx, rfl, rfl⟩ | ⟨e, _, rfl, rfl⟩
      · obtain ⟨data, hd, rfl⟩ := updateCompleted_ok hx
        rw [hd, Database.setConnection_self]
        exact .complete data region baseUrl
      · exact docStep_error _ _ _ _
    | rotateTokens owner v t =>
      obtain rfl : owner = user := by simpa [Call.concerns] using hc
      rcases commit_eq (Option.some.inj does) with ⟨c, db, hx, rfl, rfl⟩ | ⟨e, _, rfl, rfl⟩
      · obtain ⟨data, doc, hd, rfl, ht, hv, hs, rfl⟩ := rotateTokens_ok hx
        rw [hd, Database.setConnection_self]
        exact .rotate data t c doc ht hv hs
      · exact docStep_error _ _ _ _
    | markReauthorizationRequired owner =>
      obtain rfl : owner = user := by simpa [Call.concerns] using hc
      rcases commitUnit_eq (Option.some.inj does) with ⟨db, hx, rfl, rfl⟩ | ⟨e, _, rfl, rfl⟩
      · obtain ⟨data, hd, rfl⟩ := markReauthorizationRequired_ok hx
        rw [hd, Database.setConnection_self]
        exact .mark data
      · exact docStep_error _ _ _ _
    | saveConnection => cases does
    | _ => cases hc
  | freshId id =>
    cases call with
    | saveConnection owner tokens baseUrl =>
      obtain rfl : owner = user := by simpa [Call.concerns] using hc
      obtain ⟨rfl, rfl⟩ := Prod.mk.inj (Option.some.inj does)
      dsimp only [Database.saveConnection]
      rw [Database.setConnection_self]
      refine .save _ tokens baseUrl _ _ rfl ?_
      cases w.db.connections owner <;> rfl
    | _ => cases does
  | _ => cases call <;> first | cases hc | cases does

theorem connections_unconcerned {sha256Hex : String → String} {user : String} {w w' : World}
    {call : Call} {choice : Choice} {r : Except Exc call.Ret} (hc : call.concerns user = false)
    (does : onboardingMachine sha256Hex w call choice = some (r,w')) :
    w'.db.connections user = w.db.connections user := by
  cases choice with
  | failure e =>
    obtain ⟨_, rfl, _⟩ := failure_step does
    rfl
  | success =>
    cases call with
    | consumeOauthState state now =>
      rcases commit_eq (Option.some.inj does) with ⟨_, _, hx, _, rfl⟩ | ⟨_, _, _, rfl⟩
      · exact congrFun (consumeState_connections hx) user
      · rfl
    | updateCompleted owner region baseUrl =>
      rcases commitUnit_eq (Option.some.inj does) with ⟨_, hx, _, rfl⟩ | ⟨_, _, _, rfl⟩
      · obtain ⟨data, _, rfl⟩ := updateCompleted_ok hx
        exact setConnection_other _ (by simpa [Call.concerns] using hc)
      · rfl
    | rotateTokens owner v t =>
      rcases commit_eq (Option.some.inj does) with ⟨_, _, hx, _, rfl⟩ | ⟨_, _, _, rfl⟩
      · obtain ⟨_, doc, _, _, _, _, _, rfl⟩ := rotateTokens_ok hx
        exact setConnection_other _ (by simpa [Call.concerns] using hc)
      · rfl
    | markReauthorizationRequired owner =>
      rcases commitUnit_eq (Option.some.inj does) with ⟨_, hx, _, rfl⟩ | ⟨_, _, _, rfl⟩
      · obtain ⟨data, _, rfl⟩ := markReauthorizationRequired_ok hx
        exact setConnection_other _ (by simpa [Call.concerns] using hc)
      · rfl
    | syncVehicles =>
      rcases commit_eq (Option.some.inj does) with ⟨_, _, hx, _, rfl⟩ | ⟨_, _, _, rfl⟩
      · exact congrFun (syncVehicles_connections hx) user
      · rfl
    | updateFleetStatus =>
      rcases commit_eq (Option.some.inj does) with ⟨_, _, hx, _, rfl⟩ | ⟨_, _, _, rfl⟩
      · exact congrFun (updateFleetStatus_connections hx) user
      · rfl
    | getConnection => obtain ⟨_, rfl⟩ := Prod.mk.inj (Option.some.inj does); rfl
    | getVehicle => obtain ⟨_, rfl⟩ := Prod.mk.inj (Option.some.inj does); rfl
    | _ => cases does
  | freshId id =>
    cases call with
    | saveConnection owner tokens baseUrl =>
      obtain ⟨_, rfl⟩ := Prod.mk.inj (Option.some.inj does)
      exact setConnection_other _ (by simpa [Call.concerns] using hc)
    | _ => cases does
  | tokens t =>
    cases call with
    | refresh =>
      simp only [onboardingMachine] at does
      split at does
      · obtain ⟨_, rfl⟩ := Prod.mk.inj (Option.some.inj does)
        rfl
      · cases does
    | exchangeCode =>
      simp only [onboardingMachine] at does
      split at does
      · obtain ⟨_, rfl⟩ := Prod.mk.inj (Option.some.inj does)
        rfl
      · cases does
    | _ => cases does
  | honouredThenLost e =>
    cases call with
    | refresh =>
      simp only [onboardingMachine] at does
      split at does
      · obtain ⟨_, rfl⟩ := Prod.mk.inj (Option.some.inj does)
        rfl
      · cases does
    | _ => cases does
  | _ =>
    cases call <;> first
      | (obtain ⟨_, rfl⟩ := Prod.mk.inj (Option.some.inj does); rfl)
      | cases does

theorem docStep (sha256Hex : String → String) (user : String) {w w' : World} {call : Call}
    {choice : Choice} {r : Except Exc call.Ret}
    (does : onboardingMachine sha256Hex w call choice = some (r,w')) :
    DocStep user ⟨call,r⟩ (w.db.connections user) (w'.db.connections user) := by
  cases hc : call.concerns user with
  | true => exact docStep_concerned hc does
  | false =>
    rw [connections_unconcerned hc does]
    exact docStep_unconcerned hc r _

end Woodhouse.Gateway
