import Woodhouse.Gateway.Rotation
import Woodhouse.Gateway.Transactions

namespace Woodhouse.Gateway
open Effects

variable {ι : Type} {sha256Hex : String → String}

/-- `timedelta(minutes=10)` in microseconds. -/
def oauthStateLifetime : Int := 600000000

def completionModeOf : String → Option CompletionMode
  | "api" => some .api
  | "browser" => some .browser
  | _ => none

/-- What `start` records under a fresh state, or its `ValueError`. -/
def start (userId nonce completionMode : String) (browserSessionBinding : Option String)
    (current : Int) : Except String PendingAuthorization :=
  match completionModeOf completionMode with
  | none => .error "Unsupported Tesla OAuth completion mode"
  | some mode =>
    if (mode = .browser) = (browserSessionBinding ≠ none) then
      .ok { ownerUserId := userId, nonce, expiresAt := current + oauthStateLifetime
            completionMode := mode, browserSessionBinding }
    else .error "Browser Tesla OAuth requires an initiating session binding"

/-- An attempt to use a state: a callback, or a denial. -/
inductive Attempt where
  | callback (audience state code : String) (binding : Option String) (now : Option Int)
  | decline (state : String) (binding : Option String) (now : Option Int)

namespace Attempt

def state : Attempt → String
  | .callback _ state _ _ _ => state
  | .decline state _ _ => state

def binding : Attempt → Option String
  | .callback _ _ _ binding _ => binding
  | .decline _ binding _ => binding

def now : Attempt → Option Int
  | .callback _ _ _ _ now => now
  | .decline _ _ now => now

def program : Attempt → Onboarding (OnboardingResult ⊕ PendingAuthorization)
  | .callback audience state code binding now =>
    Gateway.callback audience state code binding now >>= fun result => pure (.inl result)
  | .decline state binding now =>
    Gateway.decline state binding now >>= fun pending => pure (.inr pending)

end Attempt

/-- The pending authorization a call handed out for the state document `id`. -/
def consumed (sha256Hex : String → String) (id : String) :
    OnboardingEvent → Option PendingAuthorization
  | ⟨.consumeOauthState state _, .ok pending⟩ =>
    if sha256Hex state = id then some pending else none
  | _ => none

section Step
variable {w w' : World} {choice : Choice}

theorem consumeState_ok {db db' : Database} {state : String} {now : Int}
    {pending : PendingAuthorization}
    (h : db.consumeState sha256Hex state now = .ok (pending, db')) :
    db.oauthStates (sha256Hex state) = some pending ∧ now < pending.expiresAt ∧
      db'.oauthStates = Function.update db.oauthStates (sha256Hex state) none := by
  unfold Database.consumeState at h
  split at h
  · cases h
  · split at h
    · cases h
    · rename_i data hd
      split at h
      · cases h
      · split at h
        · cases h
        · rename_i hnow
          obtain ⟨rfl, rfl⟩ := Prod.mk.inj (Except.ok.inj h)
          exact ⟨hd, by omega, rfl⟩

/-- What `start` records is handed out before its expiry. -/
theorem consumeState_created {db : Database} {state : String} {now : Int}
    {pending : PendingAuthorization} (hs : state ≠ "")
    (hd : db.oauthStates (sha256Hex state) = some pending)
    (hmode : pending.completionMode = .browser ↔ pending.browserSessionBinding ≠ none)
    (hnow : now < pending.expiresAt) :
    ∃ db', db.consumeState sha256Hex state now = .ok (pending, db') := by
  have hvalid : ¬ ((pending.completionMode = .browser ∧ pending.browserSessionBinding = none) ∨
      (pending.completionMode = .api ∧ pending.browserSessionBinding ≠ none)) := by
    rintro (⟨hb, hn⟩ | ⟨ha, hn⟩)
    · exact hmode.mp hb hn
    · rw [hmode.mpr hn] at ha
      cases ha
  have hlive : ¬ pending.expiresAt ≤ now := by omega
  unfold Database.consumeState
  rw [if_neg hs, hd]
  simp only [if_neg hvalid, if_neg hlive]
  exact ⟨_, rfl⟩

theorem start_mode {userId nonce mode : String} {binding : Option String} {current : Int}
    {pending : PendingAuthorization} (h : start userId nonce mode binding current = .ok pending) :
    pending.completionMode = .browser ↔ pending.browserSessionBinding ≠ none := by
  unfold start at h
  split at h
  · cases h
  · split at h
    · rename_i hm
      obtain rfl := Except.ok.inj h
      exact iff_of_eq hm
    · cases h

theorem syncVehicles_states {db db' : Database} {owner connectionId : String}
    {vehicles : List TeslaVehicle} {statuses : String → Option FleetStatus}
    {records : List VehicleRecord}
    (h : db.syncVehicles sha256Hex owner connectionId vehicles statuses = .ok (records, db')) :
    db'.oauthStates = db.oauthStates := by
  have hfold : ∀ (rs : List VehicleRecord) (d : Database),
      (rs.foldl (Database.bindVehicle sha256Hex) d).oauthStates = d.oauthStates := by
    intro rs
    induction rs with
    | nil => exact fun _ => rfl
    | cons r rs ih => exact fun d => ih _
  unfold Database.syncVehicles at h
  split at h
  · cases h
  · obtain ⟨rfl, rfl⟩ := Prod.mk.inj (Except.ok.inj h)
    exact hfold _ db

theorem updateFleetStatus_states {db db' : Database} {owner vehicleId : String}
    {status : FleetStatus} {record : VehicleRecord}
    (h : db.updateFleetStatus owner vehicleId status = .ok (record, db')) :
    db'.oauthStates = db.oauthStates := by
  unfold Database.updateFleetStatus at h
  split at h
  · cases h
  · split at h
    · cases h
    · split at h
      · cases h
      · obtain ⟨_, rfl⟩ := Prod.mk.inj (Except.ok.inj h)
        rfl

/-- A state document is handed out once and deleted with that, or it stays. -/
theorem state_step (id : String) {call : Call} {r : Except Exc call.Ret}
    (does : onboardingMachine sha256Hex w call choice = some (r, w')) :
    (consumed sha256Hex id ⟨call, r⟩ = none ∧ w'.db.oauthStates id = w.db.oauthStates id) ∨
    ∃ pending, consumed sha256Hex id ⟨call, r⟩ = some pending ∧
      w.db.oauthStates id = some pending ∧ w'.db.oauthStates id = none := by
  have hs := dbStep does
  generalize hdb : w'.db = db' at hs ⊢
  cases hs with
  | consumed state now pending db' commit =>
    obtain ⟨hd, _, hdel⟩ := consumeState_ok commit
    by_cases hid : sha256Hex state = id
    · subst hid
      exact .inr ⟨pending, by simp [consumed], hd, by simp [hdel]⟩
    · exact .inl ⟨by simp [consumed, hid], by simp [hdel, Function.update_of_ne (Ne.symm hid)]⟩
  | saved => exact .inl ⟨rfl, rfl⟩
  | completed owner region baseUrl db' commit =>
    obtain ⟨_, _, rfl⟩ := updateCompleted_ok commit
    exact .inl ⟨rfl, rfl⟩
  | rotated owner version tokens connection db' commit =>
    obtain ⟨_, _, _, _, _, _, _, rfl⟩ := rotateTokens_ok commit
    exact .inl ⟨rfl, rfl⟩
  | marked owner db' commit =>
    obtain ⟨_, _, rfl⟩ := markReauthorizationRequired_ok commit
    exact .inl ⟨rfl, rfl⟩
  | synced owner connectionId vehicles statuses records db' commit =>
    exact .inl ⟨rfl, congrFun (syncVehicles_states commit) id⟩
  | statusUpdated owner vehicleId status record db' commit =>
    exact .inl ⟨rfl, congrFun (updateFleetStatus_states commit) id⟩
  | unchanged _ noCommit =>
    refine .inl ⟨?_, rfl⟩
    unfold consumed
    split
    · rename_i he
      cases he
      cases noCommit
    · rfl

/-- What an attempt at a state was answered with, if the store did not fail. -/
theorem consume_step {state : String} {now : Int} {r : Except Exc PendingAuthorization}
    {pending : PendingAuthorization}
    (does : onboardingMachine sha256Hex w (.consumeOauthState state now) choice = some (r, w'))
    (hr : ∀ name, r ≠ .error (.other name)) (hs : state ≠ "")
    (hd : w.db.oauthStates (sha256Hex state) = some pending)
    (hmode : pending.completionMode = .browser ↔ pending.browserSessionBinding ≠ none)
    (hnow : now < pending.expiresAt) : r = .ok pending := by
  cases choice with
  | failure e =>
    obtain ⟨rfl, _, hc⟩ := failure_step does
    cases e with
    | other name => exact absurd rfl (hr name)
    | _ => cases hc
  | success =>
    obtain ⟨db', hok⟩ := consumeState_created hs hd hmode hnow
    have hx := Option.some.inj does
    rw [hok] at hx
    exact (Prod.mk.inj hx).1.symm
  | _ => cases does

end Step

section Runs
variable [DecidableEq ι] {α : Type} {ps₀ ps : ι → Onboarding α} {w₀ w : World} {log : GatewayLog ι}
  {id : String}

/-- A state document that is gone is never handed out again. -/
theorem gone_run (h₀ : w₀.db.oauthStates id = none)
    (run : Run (onboardingMachine sha256Hex) ps₀ w₀ log ps w) :
    w.db.oauthStates id = none ∧ ∀ entry ∈ log, consumed sha256Hex id entry.2 = none := by
  refine run.invariant (I := fun log w => w.db.oauthStates id = none ∧
    ∀ entry ∈ log, consumed sha256Hex id entry.2 = none) ⟨h₀, by simp⟩ ?_
  intro log ps w i call k choice r w' _ _ does ih
  rcases state_step id does with ⟨hnone, hsame⟩ | ⟨pending, _, hsome, _⟩
  · refine ⟨hsame.trans ih.1, ?_⟩
    intro entry hm
    rcases List.mem_append.mp hm with hm | hm
    · exact ih.2 entry hm
    · rw [List.mem_singleton.mp hm]
      exact hnone
  · rw [ih.1] at hsome
    cases hsome

/-- What a state document holds is what was recorded when it was created. -/
theorem recorded_run (run : Run (onboardingMachine sha256Hex) ps₀ w₀ log ps w)
    {pending : PendingAuthorization} (hd : w.db.oauthStates id = some pending) :
    w₀.db.oauthStates id = some pending := by
  have hall := run.state_invariant
    (I := fun w => ∀ p, w.db.oauthStates id = some p → w₀.db.oauthStates id = some p)
    (fun _ hp => hp) (by
      intro w call choice r w' does ih p hp
      rcases state_step id does with ⟨_, hsame⟩ | ⟨_, _, _, hgone⟩
      · exact ih p (hsame ▸ hp)
      · rw [hgone] at hp
        cases hp)
  exact hall pending hd

end Runs

/-- The authorization an attempt got for the state it presents, if its browser
session is the initiating one. -/
def Authorized (attempt : Attempt) (h : List OnboardingEvent) (pending : PendingAuthorization) :
    Prop :=
  (∃ now, (⟨.consumeOauthState attempt.state now, .ok pending⟩ : OnboardingEvent) ∈ h) ∧
    (pending.completionMode = .browser →
      pending.browserSessionBinding ≠ none ∧ attempt.binding = pending.browserSessionBinding)

/-- When an attempt makes the calls that spend an authorization. -/
def AttemptCalls (attempt : Attempt) (h : List OnboardingEvent) : Call → Prop
  | .consumeOauthState state now => state = attempt.state ∧
      (attempt.now = some now ∨ (⟨.utcNow, .ok now⟩ : OnboardingEvent) ∈ h)
  | .exchangeCode _ nonce => ∃ pending, Authorized attempt h pending ∧ nonce = pending.nonce
  | .saveConnection owner _ _ => ∃ pending, Authorized attempt h pending ∧ owner = pending.ownerUserId
  | .syncVehicles owner _ _ _ => ∃ pending, Authorized attempt h pending ∧ owner = pending.ownerUserId
  | .updateCompleted owner _ _ => ∃ pending, Authorized attempt h pending ∧ owner = pending.ownerUserId
  | .rotateTokens .. | .markReauthorizationRequired _ => False
  | _ => True

theorem requireBrowserSessionBinding_ok {pending : PendingAuthorization} {expected : Option String}
    (h : requireBrowserSessionBinding pending expected = .ok ()) :
    pending.completionMode = .browser →
      pending.browserSessionBinding ≠ none ∧ expected = pending.browserSessionBinding := by
  intro hb
  unfold requireBrowserSessionBinding at h
  rw [if_neg (not_not_intro hb)] at h
  split at h
  · cases h
  · rename_i hn
    simp only [not_or, ne_eq, not_not] at hn
    exact ⟨hn.1, hn.2.2.symm⟩

theorem Authorized.mono {attempt : Attempt} {h h' : List OnboardingEvent}
    {pending : PendingAuthorization} (ha : Authorized attempt h pending) (hp : h <+: h') :
    Authorized attempt h' pending := by
  obtain ⟨⟨now, hm⟩, hb⟩ := ha
  exact ⟨⟨now, hp.subset hm⟩, hb⟩

theorem attempt_time (attempt : Attempt) (h : List OnboardingEvent) :
    Obeys (AttemptCalls attempt) (fun h' r => ∀ now, r = .ok now →
      attempt.now = some now ∨ (⟨.utcNow, .ok now⟩ : OnboardingEvent) ∈ h')
      (currentTime attempt.now) h := by
  cases hn : attempt.now with
  | some now =>
    intro t ht
    obtain rfl := Except.ok.inj ht
    exact .inl rfl
  | none =>
    refine ⟨trivial, ?_⟩
    intro r
    cases r with
    | ok now =>
      intro t ht
      obtain rfl := Except.ok.inj ht
      exact .inr (by simp)
    | error e =>
      intro t ht
      cases ht

/-- The common start of a callback and a denial. -/
theorem attempt_consumes {α : Type} (attempt : Attempt)
    {f : PendingAuthorization → Onboarding α}
    (hf : ∀ h pending, Authorized attempt h pending →
      Obeys (AttemptCalls attempt) (fun _ _ => True) (f pending) h) :
    Obeys (AttemptCalls attempt) (fun _ _ => True) (do
      let current ← currentTime attempt.now
      let pending ← perform (.consumeOauthState attempt.state current)
      Prog.ofExcept (requireBrowserSessionBinding pending attempt.binding)
      f pending) [] := by
  refine (attempt_time attempt []).bind ?_ (fun _ _ _ => trivial)
  intro h current hcurrent
  refine ⟨⟨rfl, hcurrent current rfl⟩, ?_⟩
  intro r
  cases r with
  | error e => trivial
  | ok pending =>
    show Obeys _ _ (Prog.ofExcept (requireBrowserSessionBinding pending attempt.binding) >>=
      fun _ => f pending) _
    cases hb : requireBrowserSessionBinding pending attempt.binding with
    | error e => trivial
    | ok _ =>
      refine hf _ pending ⟨⟨current, List.mem_append_right _ (List.mem_singleton.mpr rfl)⟩, ?_⟩
      exact requireBrowserSessionBinding_ok hb

theorem attempt_call {α : Type} {attempt : Attempt} {h : List OnboardingEvent} {call : Call}
    {f : call.Ret → Onboarding α}
    (ha : AttemptCalls attempt h call)
    (hf : ∀ a, Obeys (AttemptCalls attempt) (fun _ _ => True) (f a) (h ++ [⟨call, .ok a⟩])) :
    Obeys (AttemptCalls attempt) (fun _ _ => True) (perform call >>= f) h := by
  unfold perform
  rw [obeys_perform_bind]
  exact ⟨ha, fun _ => trivial, hf⟩

/-- `callback` once the binding is checked. -/
def exchangeAndDiscover (audience code : String) (pending : PendingAuthorization) :
    Onboarding OnboardingResult := do
  let tokens ← perform (.exchangeCode code pending.nonce)
  let connection ← perform (.saveConnection pending.ownerUserId tokens audience)
  let region ← perform (.region tokens.accessToken connection.baseUrl)
  let vehicles ← perform (.listVehicles tokens.accessToken region.baseUrl)
  let statuses ← perform
    (.fleetStatus tokens.accessToken region.baseUrl (vehicles.map TeslaVehicle.vin))
  let records ← perform
    (.syncVehicles pending.ownerUserId connection.connectionId vehicles statuses)
  let connection ← completeConnection pending.ownerUserId region.region region.baseUrl
  return { ownerUserId := pending.ownerUserId
           connectionId := connection.connectionId
           region := region.region
           baseUrl := region.baseUrl
           vehicles := records
           completionMode := pending.completionMode }

theorem callback_eq (audience state code : String) (binding : Option String) (now : Option Int) :
    callback audience state code binding now = (do
      let current ← currentTime now
      let pending ← perform (.consumeOauthState state current)
      Prog.ofExcept (requireBrowserSessionBinding pending binding)
      exchangeAndDiscover audience code pending) := rfl

theorem attempt_calls (attempt : Attempt) :
    Obeys (AttemptCalls attempt) (fun _ _ => True) attempt.program [] := by
  cases attempt with
  | callback audience state code binding now =>
    refine Obeys.bind (Q := fun _ _ => True) ?_ (fun _ _ _ => trivial) (fun _ _ _ => trivial)
    rw [callback_eq]
    refine attempt_consumes (f := exchangeAndDiscover audience code)
      (.callback audience state code binding now) ?_
    intro h pending ha
    refine attempt_call ⟨pending, ha, rfl⟩ ?_
    intro tokens
    refine attempt_call ⟨pending, ha.mono (by simp), rfl⟩ ?_
    intro connection
    refine attempt_call trivial ?_
    intro region
    refine attempt_call trivial ?_
    intro vehicles
    refine attempt_call trivial ?_
    intro statuses
    refine attempt_call ⟨pending, ha.mono (by simp), rfl⟩ ?_
    intro records
    refine Obeys.bind (Q := fun _ _ => True) ?_ (fun _ _ _ => trivial) (fun _ _ _ => trivial)
    refine attempt_call ⟨pending, ha.mono (by simp), rfl⟩ ?_
    intro _
    exact ⟨trivial, fun r => by cases r <;> trivial⟩
  | decline state binding now =>
    refine Obeys.bind (Q := fun _ _ => True) ?_ (fun _ _ _ => trivial) (fun _ _ _ => trivial)
    refine attempt_consumes (f := fun pending => pure pending) (.decline state binding now) ?_
    intro h pending _
    trivial

section Attempts
variable [DecidableEq ι] {attempts : ι → Attempt} {w₀ w : World} {log : GatewayLog ι}
  {ps : ι → Onboarding (OnboardingResult ⊕ PendingAuthorization)}

/-- What holds of the attempts at the states that exist in `w₀`, up to the state `w`. -/
structure SingleUse (sha256Hex : String → String) (attempts : ι → Attempt) (w₀ : World)
    (log : GatewayLog ι) (w : World) : Prop where
  /-- A state yields at most one pending authorization. -/
  once : ∀ pre post i state now pending,
    log = pre ++ (i, ⟨.consumeOauthState state now, .ok pending⟩) :: post →
    ∀ entry ∈ post, consumed sha256Hex (sha256Hex state) entry.2 = none
  /-- It is the one recorded at the creation, and the attempt's time is before its expiry. -/
  unexpired : ∀ pre post i state now pending,
    log = pre ++ (i, ⟨.consumeOauthState state now, .ok pending⟩) :: post →
    w₀.db.oauthStates (sha256Hex state) = some pending ∧ now < pending.expiresAt ∧
      ((attempts i).now = some now ∨ (i, ⟨.utcNow, .ok now⟩) ∈ pre)
  /-- A code is exchanged only for the caller with the binding recorded at the creation. -/
  exchanged : ∀ pre post i code nonce r,
    log = pre ++ (i, ⟨.exchangeCode code nonce, r⟩) :: post →
    ∃ now pending, (i, ⟨.consumeOauthState (attempts i).state now, .ok pending⟩) ∈ pre ∧
      w₀.db.oauthStates (sha256Hex (attempts i).state) = some pending ∧
      nonce = pending.nonce ∧ (pending.completionMode = .browser →
        pending.browserSessionBinding ≠ none ∧
          (attempts i).binding = pending.browserSessionBinding)
  /-- Tokens are saved only for that caller, under the recorded owner. -/
  saved : ∀ pre post i owner tokens baseUrl r,
    log = pre ++ (i, ⟨.saveConnection owner tokens baseUrl, r⟩) :: post →
    ∃ now pending, (i, ⟨.consumeOauthState (attempts i).state now, .ok pending⟩) ∈ pre ∧
      w₀.db.oauthStates (sha256Hex (attempts i).state) = some pending ∧
      owner = pending.ownerUserId ∧ (pending.completionMode = .browser →
        pending.browserSessionBinding ≠ none ∧
          (attempts i).binding = pending.browserSessionBinding)
  /-- An attempt before the expiry that reaches the store uses the state up, whatever
  its binding. -/
  usedUp : ∀ pre post i state now r pending,
    log = pre ++ (i, ⟨.consumeOauthState state now, r⟩) :: post →
    w₀.db.oauthStates (sha256Hex state) = some pending → state ≠ "" → now < pending.expiresAt →
    (∀ name, r ≠ .error (.other name)) →
    w.db.oauthStates (sha256Hex state) = none ∧
      ∀ entry ∈ post, consumed sha256Hex (sha256Hex state) entry.2 = none

theorem after_gone {α : Type} {ps₀ ps : ι → Onboarding α} {pre post : GatewayLog ι} {i : ι}
    {state : String} {now : Int} {pending : PendingAuthorization}
    (run : Run (onboardingMachine sha256Hex) ps₀ w₀
      (pre ++ (i, ⟨.consumeOauthState state now, .ok pending⟩) :: post) ps w) :
    w₀.db.oauthStates (sha256Hex state) = some pending ∧ now < pending.expiresAt ∧
      w.db.oauthStates (sha256Hex state) = none ∧
      ∀ entry ∈ post, consumed sha256Hex (sha256Hex state) entry.2 = none := by
  obtain ⟨qs, t, c, k, t', before, _, does, after⟩ := run.at_event
  have hs := dbStep does
  generalize hdb : t'.db = db' at hs
  cases hs with
  | consumed _ _ _ _ commit =>
    obtain ⟨hd, hnow, hdel⟩ := consumeState_ok commit
    have hnone : t'.db.oauthStates (sha256Hex state) = none := by simp [hdb, hdel]
    obtain ⟨hgone, hlater⟩ := gone_run hnone after
    exact ⟨recorded_run before hd, hnow, hgone, hlater⟩
  | unchanged _ noCommit => cases noCommit

/-- The authorization an attempt spends is the one recorded for the state it presents. -/
theorem authorized_recorded {i : ι} {pre post : GatewayLog ι} {call : Call}
    {r : Except Exc call.Ret} {pending : PendingAuthorization}
    (run : Run (onboardingMachine sha256Hex) (fun i => (attempts i).program) w₀
      (pre ++ (i, ⟨call, r⟩) :: post) ps w)
    (ha : Authorized (attempts i) (localEvents i pre) pending) :
    ∃ now, (i, ⟨.consumeOauthState (attempts i).state now, .ok pending⟩) ∈ pre ∧
      w₀.db.oauthStates (sha256Hex (attempts i).state) = some pending := by
  obtain ⟨⟨now, hm⟩, _⟩ := ha
  refine ⟨now, mem_local.mp hm, ?_⟩
  obtain ⟨before, after, rfl⟩ := List.append_of_mem (mem_local.mp hm)
  have hrun : Run (onboardingMachine sha256Hex) (fun i => (attempts i).program) w₀
      (before ++ (i, ⟨.consumeOauthState (attempts i).state now, .ok pending⟩) ::
        (after ++ (i, ⟨call, r⟩) :: post)) ps w := by
    simpa using run
  exact (after_gone hrun).1

theorem calls_at {i : ι} {pre post : GatewayLog ι} {call : Call} {r : Except Exc call.Ret}
    (run : Run (onboardingMachine sha256Hex) (fun i => (attempts i).program) w₀
      (pre ++ (i, ⟨call, r⟩) :: post) ps w) :
    AttemptCalls (attempts i) (localEvents i pre) call := by
  obtain ⟨qs, t, c, k, t', before, turn, _, _⟩ := run.at_event
  exact before.allowed (attempt_calls (attempts i)) turn

end Attempts

/-- What a browser start of the user records. -/
def browserPending : PendingAuthorization :=
  { ownerUserId := "user", nonce := "nonce", expiresAt := 600000000
    completionMode := .browser, browserSessionBinding := some "session" }

theorem start_browserPending :
    start "user" "nonce" "browser" (some "session") 0 = .ok browserPending := by
  rfl

def browserWorld : World :=
  { db :=
      { oauthStates := Function.update (fun _ => none) "state" (some browserPending)
        connections := fun _ => none
        vehicles := fun _ => none
        vinIndex := fun _ => none }
    spent := []
    issued := [] }

/-- A callback from another session, and the one from the initiating session after it. -/
def stolenState (i : Bool) : Attempt :=
  .callback "https://fleet" "state" "code" (some (if i then "session" else "other")) (some 1)

end Woodhouse.Gateway
