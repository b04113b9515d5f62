import Woodhouse.Gateway.Connection

namespace Woodhouse.Gateway
open Effects

/-- The calls whose answer commits a write. -/
def Call.writesStore : Call → Bool
  | .consumeOauthState .. | .saveConnection .. | .updateCompleted .. | .rotateTokens ..
  | .markReauthorizationRequired _ | .syncVehicles .. | .updateFleetStatus .. => true
  | _ => false

def commits : OnboardingEvent → Bool
  | ⟨call, .ok _⟩ => call.writesStore
  | _ => false

/-- How one answered call moves the store: one committed transaction, or not at all. -/
inductive DbStep (sha256Hex : String → String) (db : Database) : OnboardingEvent → Database → Prop
  | consumed (state now pending db')
      (commit : db.consumeState sha256Hex state now = .ok (pending, db')) :
      DbStep sha256Hex db ⟨.consumeOauthState state now, .ok pending⟩ db'
  | saved (owner tokens baseUrl freshId) :
      DbStep sha256Hex db
        ⟨.saveConnection owner tokens baseUrl, .ok (db.saveConnection owner tokens baseUrl freshId).1⟩
        (db.saveConnection owner tokens baseUrl freshId).2
  | completed (owner region baseUrl db')
      (commit : db.updateCompleted owner region baseUrl = .ok db') :
      DbStep sha256Hex db ⟨.updateCompleted owner region baseUrl, .ok ()⟩ db'
  | rotated (owner version tokens connection db')
      (commit : db.rotateTokens owner version tokens = .ok (connection, db')) :
      DbStep sha256Hex db ⟨.rotateTokens owner version tokens, .ok connection⟩ db'
  | marked (owner db') (commit : db.markReauthorizationRequired owner = .ok db') :
      DbStep sha256Hex db ⟨.markReauthorizationRequired owner, .ok ()⟩ db'
  | synced (owner connectionId vehicles statuses records db')
      (commit : db.syncVehicles sha256Hex owner connectionId vehicles statuses =
        .ok (records, db')) :
      DbStep sha256Hex db ⟨.syncVehicles owner connectionId vehicles statuses, .ok records⟩ db'
  | statusUpdated (owner vehicleId status record db')
      (commit : db.updateFleetStatus owner vehicleId status = .ok (record, db')) :
      DbStep sha256Hex db ⟨.updateFleetStatus owner vehicleId status, .ok record⟩ db'
  | unchanged (e) (noCommit : commits e = false) : DbStep sha256Hex db e db

variable {sha256Hex : String → String} {w w' : World}

/-- A call that raises leaves the store alone. -/
theorem dbStep_error (db : Database) (call : Call) (e : Exc) :
    DbStep sha256Hex db ⟨call, .error e⟩ db := .unchanged _ rfl

theorem dbStep_success {call : Call} {r : Except Exc call.Ret}
    (does : onboardingMachine sha256Hex w call .success = some (r, w')) :
    DbStep sha256Hex w.db ⟨call, r⟩ w'.db := by
  cases call with
  | consumeOauthState =>
    rcases commit_eq (Option.some.inj does) with ⟨_, _, hx, rfl, rfl⟩ | ⟨_, _, rfl, rfl⟩
    · exact .consumed _ _ _ _ hx
    · exact dbStep_error _ _ _
  | rotateTokens =>
    rcases commit_eq (Option.some.inj does) with ⟨_, _, hx, rfl, rfl⟩ | ⟨_, _, rfl, rfl⟩
    · exact .rotated _ _ _ _ _ hx
    · exact dbStep_error _ _ _
  | syncVehicles =>
    rcases commit_eq (Option.some.inj does) with ⟨_, _, hx, rfl, rfl⟩ | ⟨_, _, rfl, rfl⟩
    · exact .synced _ _ _ _ _ _ hx
    · exact dbStep_error _ _ _
  | updateFleetStatus =>
    rcases commit_eq (Option.some.inj does) with ⟨_, _, hx, rfl, rfl⟩ | ⟨_, _, rfl, rfl⟩
    · exact .statusUpdated _ _ _ _ _ hx
    · exact dbStep_error _ _ _
  | updateCompleted =>
    rcases commitUnit_eq (Option.some.inj does) with ⟨_, hx, rfl, rfl⟩ | ⟨_, _, rfl, rfl⟩
    · exact .completed _ _ _ _ hx
    · exact dbStep_error _ _ _
  | markReauthorizationRequired =>
    rcases commitUnit_eq (Option.some.inj does) with ⟨_, hx, rfl, rfl⟩ | ⟨_, _, rfl, rfl⟩
    · exact .marked _ _ hx
    · exact dbStep_error _ _ _
  | getConnection =>
    obtain ⟨_, rfl⟩ := Prod.mk.inj (Option.some.inj does)
    exact .unchanged _ (by cases r <;> rfl)
  | getVehicle =>
    obtain ⟨_, rfl⟩ := Prod.mk.inj (Option.some.inj does)
    exact .unchanged _ (by cases r <;> rfl)
  | _ => cases does

theorem dbStep {call : Call} {choice : Choice} {r : Except Exc call.Ret}
    (does : onboardingMachine sha256Hex w call choice = some (r, w')) :
    DbStep sha256Hex w.db ⟨call, r⟩ w'.db := by
  cases choice with
  | failure e =>
    obtain ⟨rfl, rfl, _⟩ := failure_step does
    exact dbStep_error _ _ _
  | success => exact dbStep_success does
  | freshId id =>
    cases call with
    | saveConnection owner tokens baseUrl =>
      obtain ⟨rfl, rfl⟩ := Prod.mk.inj (Option.some.inj does)
      exact .saved _ _ _ _
    | _ => cases does
  | tokens t =>
    cases call with
    | refresh =>
      simp only [onboardingMachine] at does
      split at does
      · obtain ⟨rfl, rfl⟩ := Prod.mk.inj (Option.some.inj does)
        exact .unchanged _ rfl
      · cases does
    | exchangeCode =>
      simp only [onboardingMachine] at does
      split at does
      · obtain ⟨rfl, rfl⟩ := Prod.mk.inj (Option.some.inj does)
        exact .unchanged _ rfl
      · cases does
    | _ => cases does
  | honouredThenLost e =>
    cases call with
    | refresh =>
      simp only [onboardingMachine] at does
      split at does
      · obtain ⟨rfl, rfl⟩ := Prod.mk.inj (Option.some.inj does)
        exact dbStep_error _ _ _
      · cases does
    | _ => cases does
  | _ =>
    cases call <;> first
      | (obtain ⟨rfl, rfl⟩ := Prod.mk.inj (Option.some.inj does); exact .unchanged _ rfl)
      | cases does

end Woodhouse.Gateway
