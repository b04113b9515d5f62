import Woodhouse.Gateway.Discovery

namespace Woodhouse.Gateway
open Effects

variable {sha256Hex : String → String} {user : String}

/-- Calls that take effect may raise all the same. -/
def lossyMachine (sha256Hex : String → String) :
    Machine Call Call.Ret Exc (World × List OnboardingEvent) (Choice × Option Exc) :=
  (onboardingMachine sha256Hex).lossy Call.canRaise

/-- What took effect, as the log of the only request. -/
def alone (effects : List OnboardingEvent) : GatewayLog Unit := effects.map (fun e => ((), e))

/-- The connection document a callback leaves behind, wherever it stopped. -/
inductive LeftBy (audience user : String) (data : ConnectionDocument)
    (effects : List OnboardingEvent) : ConnectionDocument → Prop
  | untouched (noSave : ∀ e ∈ effects, saves user e = false) : LeftBy audience user data effects data
  | undiscovered (doc) (saved : ∃ e ∈ effects, saves user e = true)
      (noCompletion : discovery user (alone effects) = none) (status : doc.status = .discoveryPending)
      (region : doc.region = none) (baseUrl : doc.baseUrl = audience) :
      LeftBy audience user data effects doc
  | rediscovered (doc) (found : TeslaRegion)
      (completed : discovery user (alone effects) = some (found.region, found.baseUrl))
      (looked : ∃ accessToken baseUrl,
        (⟨.region accessToken baseUrl, .ok found⟩ : OnboardingEvent) ∈ effects)
      (status : doc.status = .connected) (region : doc.region = some found.region)
      (baseUrl : doc.baseUrl = found.baseUrl) : LeftBy audience user data effects doc

/-- The calls of a callback that write a connection. -/
def CallbackCalls (audience : String) (h : List OnboardingEvent) : Call → Prop
  | .saveConnection _ _ baseUrl => baseUrl = audience
  | .updateCompleted _ region baseUrl =>
    ∃ accessToken base, (⟨.region accessToken base, .ok ⟨region, baseUrl⟩⟩ : OnboardingEvent) ∈ h
  | .rotateTokens .. | .markReauthorizationRequired _ => False
  | _ => True

theorem callback_call {α : Type} {audience : String} {h : List OnboardingEvent} {call : Call}
    {f : call.Ret → Onboarding α} (ha : CallbackCalls audience h call)
    (hok : ∀ a, Obeys (CallbackCalls audience) (fun _ _ => True) (f a) (h ++ [⟨call, .ok a⟩])) :
    Obeys (CallbackCalls audience) (fun _ _ => True) (perform call >>= f) h := by
  unfold perform
  rw [obeys_perform_bind]
  exact ⟨ha, fun _ => trivial, hok⟩

theorem callback_calls (audience state code : String) (binding : Option String) (now : Option Int) :
    Obeys (CallbackCalls audience) (fun _ _ => True)
      (callback audience state code binding now) [] := by
  have htime : Obeys (CallbackCalls audience) (fun _ _ => True) (currentTime now) [] := by
    cases now with
    | some t => trivial
    | none => exact ⟨trivial, fun r => by cases r <;> trivial⟩
  refine htime.bind ?_ (fun _ _ _ => trivial)
  intro h current _
  refine callback_call trivial ?_
  intro pending
  cases requireBrowserSessionBinding pending binding with
  | error e => trivial
  | ok _ =>
    refine callback_call trivial ?_
    intro tokens
    refine callback_call rfl ?_
    intro connection
    refine callback_call trivial ?_
    intro region
    refine callback_call trivial ?_
    intro vehicles
    refine callback_call trivial ?_
    intro statuses
    refine callback_call trivial ?_
    intro records
    refine Obeys.bind (Q := fun _ _ => True) ?_ (fun _ _ _ => trivial) (fun _ _ _ => trivial)
    refine callback_call ?_ ?_
    · exact ⟨tokens.accessToken, connection.baseUrl, by simp⟩
    · intro _
      exact ⟨trivial, fun r => by cases r <;> trivial⟩

theorem saves_eq {e : OnboardingEvent} (h : saves user e = true) :
    ∃ tokens baseUrl c, e = ⟨.saveConnection user tokens baseUrl, .ok c⟩ := by
  unfold saves at h
  split at h
  · rename_i owner tokens baseUrl c
    obtain rfl : owner = user := by simpa using h
    exact ⟨tokens, baseUrl, c, rfl⟩
  · cases h

theorem discovery_alone (user : String) (effects : List OnboardingEvent) (e : OnboardingEvent) :
    discovery user (alone (effects ++ [e])) =
      if saves user e then none else (completes user e).or (discovery user (alone effects)) := by
  unfold alone
  rw [List.map_append]
  exact discovery_snoc user _ () e

theorem LeftBy.snoc {audience : String} {data doc : ConnectionDocument}
    {effects : List OnboardingEvent} {e : OnboardingEvent}
    (h : LeftBy audience user data effects doc) (hsave : saves user e = false)
    (hcomplete : completes user e = none) : LeftBy audience user data (effects ++ [e]) doc := by
  have hfound : discovery user (alone (effects ++ [e])) = discovery user (alone effects) := by
    rw [discovery_alone, hsave, hcomplete]
    rfl
  cases h with
  | untouched noSave =>
    refine .untouched ?_
    intro d hm
    rcases List.mem_append.mp hm with hm | hm
    · exact noSave d hm
    · rw [List.mem_singleton.mp hm]
      exact hsave
  | undiscovered _ saved noCompletion hs hr hb =>
    obtain ⟨d, hm, hsaved⟩ := saved
    exact .undiscovered doc ⟨d, List.mem_append_left _ hm, hsaved⟩ (by rw [hfound, noCompletion])
      hs hr hb
  | rediscovered _ found completed looked hs hr hb =>
    obtain ⟨token, base, hm⟩ := looked
    exact .rediscovered doc found (by rw [hfound, completed])
      ⟨token, base, List.mem_append_left _ hm⟩ hs hr hb

variable {audience state code : String} {binding : Option String} {now : Option Int}
  {w₀ w w' : World} {log : GatewayLog Unit} {ps : Unit → Onboarding OnboardingResult}
  {data doc : ConnectionDocument} {effects : List OnboardingEvent}

/-- One call that takes effect. -/
theorem LeftBy.effect {call : Call} {choice : Choice} {a : call.Ret}
    (h : LeftBy audience user data effects doc) (hdoc : w.db.connections user = some doc)
    (does : onboardingMachine sha256Hex w call choice = some (.ok a, w'))
    (hcall : CallbackCalls audience effects call) :
    ∃ doc', w'.db.connections user = some doc' ∧
      LeftBy audience user data (effects ++ [⟨call, .ok a⟩]) doc' := by
  have hs := discoveryStep user does
  rw [hdoc] at hs
  generalize hnew : w'.db.connections user = new at hs ⊢
  cases hs with
  | save _ _ doc' hsave hregion hstatus =>
    obtain ⟨tokens, baseUrl, c, he⟩ := saves_eq hsave
    cases he
    obtain ⟨stored, hstored, _, _, hbase, _⟩ := saveConnection_step does
    obtain rfl := Option.some.inj (hnew.symm.trans hstored)
    refine ⟨doc', rfl, .undiscovered doc' ⟨_, List.mem_append_right _ (List.mem_singleton.mpr rfl),
      hsave⟩ ?_ hstatus hregion (hbase.trans hcall)⟩
    rw [discovery_alone, hsave]
    rfl
  | complete data region baseUrl =>
    obtain ⟨token, base, hm⟩ := hcall
    refine ⟨_, rfl, .rediscovered _ ⟨region, baseUrl⟩ ?_ ⟨token, base, ?_⟩ rfl rfl rfl⟩
    · simp [discovery_alone, saves, completes]
    · exact List.mem_append_left _ hm
  | rotate => cases hcall
  | mark => cases hcall
  | other _ _ hsave hcomplete => exact ⟨doc, rfl, h.snoc hsave hcomplete⟩

/-- What a callback may do next, it may do after what took effect. -/
theorem callbackCalls_effects {h : List OnboardingEvent} {call : Call}
    (hcall : CallbackCalls audience h call)
    (hanswered : ∀ token base found, (⟨.region token base, .ok found⟩ : OnboardingEvent) ∈ h →
      (⟨.region token base, .ok found⟩ : OnboardingEvent) ∈ effects) :
    CallbackCalls audience effects call := by
  cases call with
  | updateCompleted owner region baseUrl =>
    obtain ⟨token, base, hm⟩ := hcall
    exact ⟨token, base, hanswered _ _ _ hm⟩
  | _ => exact hcall

theorem callback_leaves
    (run : Run (lossyMachine sha256Hex) (fun _ => callback audience state code binding now) (w₀, [])
      log ps (w, effects))
    (hd : w₀.db.connections user = some data) :
    ∃ doc, w.db.connections user = some doc ∧ LeftBy audience user data effects doc := by
  refine run.invariant (I := fun _ t =>
    ∃ doc, t.1.db.connections user = some doc ∧ LeftBy audience user data t.2 doc) ?_ ?_
  · refine ⟨data, hd, .untouched ?_⟩
    intro e hm
    cases hm
  · rintro log ps ⟨w, effects⟩ i call k c r ⟨w', effects'⟩ before turn does ⟨doc, hdoc, hleft⟩
    have hcall := callbackCalls_effects
      (before.allowed (callback_calls audience state code binding now) turn)
      (fun token base found hm => before.answered_effect (mem_local.mp hm))
    rcases Machine.lossy_cases does with ⟨a, hdoes, rfl, _⟩ | ⟨e, hdoes, rfl, _⟩
    · exact hleft.effect hdoc hdoes hcall
    · have hs := discoveryStep user hdoes
      rw [hdoc] at hs
      generalize hnew : w'.db.connections user = new at hs
      refine ⟨doc, ?_, hleft⟩
      cases hs with
      | save _ _ _ hsave =>
        obtain ⟨_, _, _, he⟩ := saves_eq hsave
        cases he
      | other => rfl

/-- After a callback a working connection still works exactly when no new tokens were
saved over it, or the new discovery was stored as well. -/
theorem callback_keeps_working
    (run : Run (lossyMachine sha256Hex) (fun _ => callback audience state code binding now) (w₀, [])
      log ps (w, effects))
    (hd : w₀.db.connections user = some data) (hstatus : data.status = .connected)
    (hregion : data.region ≠ none) :
    ∃ doc, w.db.connections user = some doc ∧ LeftBy audience user data effects doc ∧
      (doc.status = .connected ∧ doc.region ≠ none ↔
        (∀ e ∈ effects, saves user e = false) ∨ discovery user (alone effects) ≠ none) := by
  obtain ⟨doc, hdoc, hleft⟩ := callback_leaves run hd
  refine ⟨doc, hdoc, hleft, ?_⟩
  cases hleft with
  | untouched noSave => exact ⟨fun _ => .inl noSave, fun _ => ⟨hstatus, hregion⟩⟩
  | undiscovered _ saved noCompletion hs hr hb =>
    constructor
    · intro hworks
      exact absurd hr hworks.2
    · rintro (hnone | hfound)
      · obtain ⟨e, hm, hsaved⟩ := saved
        rw [hnone e hm] at hsaved
        cases hsaved
      · exact absurd noCompletion hfound
  | rediscovered _ found completed looked hs hr hb =>
    constructor
    · intro _
      right
      rw [completed]
      simp
    · intro _
      exact ⟨hs, by simp [hr]⟩

/-- A connected user who has started another authorization. -/
def reauthorizingWorld : World :=
  { connectedWorld with
    db := { connectedWorld.db with oauthStates := startedWorld.db.oauthStates } }

theorem working_connection : (reauthorizingWorld.db.connections "user").any (fun doc =>
    doc.status == .connected && doc.region.isSome) = true := by
  rfl

def exchanged (e : OnboardingEvent) : Bool :=
  match e with
  | ⟨.exchangeCode _ _, .ok _⟩ => true
  | _ => false

/-- The region lookup after the code exchange fails. -/
def failedLookupSchedule : List (Unit × Choice × Option Exc) :=
  [((), .success, none), ((), .tokens (tokenSet "1"), none), ((), .freshId "conn", none),
    ((), .failure (.teslaApi "upstream_unavailable"), none)]

theorem failed_lookup_disconnects :
    (reauthorizingWorld.db.connections "user").any (fun doc =>
      doc.status == .connected && doc.region.isSome) = true ∧
    ∃ log ps w effects, Run (lossyMachine id)
        (fun _ => callback "https://fleet" "state" "code" none (some 0)) (reauthorizingWorld, [])
        log ps (w, effects) ∧
      ps () = .raise (.teslaApi "upstream_unavailable") ∧
      log.any (fun entry => exchanged entry.2) = true ∧
      ¬ ∃ doc, w.db.connections "user" = some doc ∧ doc.status = .connected ∧ doc.region ≠ none := by
  refine ⟨working_connection, ?_⟩
  obtain ⟨log, ps, ⟨w, effects⟩, run, hp⟩ := run_of_schedule (lossyMachine id)
    (fun _ => callback "https://fleet" "state" "code" none (some 0)) (reauthorizingWorld, [])
    failedLookupSchedule
    (fun x => (match x.2.1 () with
        | .raise e => e == .teslaApi "upstream_unavailable"
        | _ => false) && x.1.any (fun entry => exchanged entry.2) &&
      (x.2.2.1.db.connections "user").all (fun doc => doc.region == none)) (by rfl)
  simp only [Bool.and_eq_true] at hp
  obtain ⟨⟨hraise, hexchanged⟩, hall⟩ := hp
  refine ⟨log, ps, w, effects, run, ?_, hexchanged, ?_⟩
  · split at hraise
    · rename_i e he
      rw [he]
      simpa using hraise
    · cases hraise
  · rintro ⟨doc, hd, _, hregion⟩
    rw [hd] at hall
    exact hregion (by simpa using hall)

/-- The callback completes, but its last update raises. -/
def lostCompletionSchedule : List (Unit × Choice × Option Exc) :=
  [((), .success, none), ((), .tokens (tokenSet "1"), none), ((), .freshId "conn", none),
    ((), .regionIs ⟨"na", "https://fleet-na"⟩, none), ((), .vehiclesAre [], none),
    ((), .statusesAre (fun _ => none), none), ((), .success, none),
    ((), .success, some (.other "ServiceUnavailable"))]

theorem callback_keeps_working_lost_completion :
    ∃ log ps w effects, Run (lossyMachine id)
        (fun _ => callback "https://fleet" "state" "code" none (some 0)) (reauthorizingWorld, [])
        log ps (w, effects) ∧
      ps () = .raise (.other "ServiceUnavailable") ∧ effects.any (saves "user") = true ∧
      ∃ data doc, w.db.connections "user" = some doc ∧
        LeftBy "https://fleet" "user" data effects doc ∧
        (doc.status = .connected ∧ doc.region ≠ none ↔
          (∀ e ∈ effects, saves "user" e = false) ∨ discovery "user" (alone effects) ≠ none) := by
  obtain ⟨log, ps, ⟨w, effects⟩, run, hp⟩ := run_of_schedule (lossyMachine id)
    (fun _ => callback "https://fleet" "state" "code" none (some 0)) (reauthorizingWorld, [])
    lostCompletionSchedule
    (fun x => (match x.2.1 () with
        | .raise e => e == .other "ServiceUnavailable"
        | _ => false) && x.2.2.2.any (saves "user")) (by rfl)
  rw [Bool.and_eq_true] at hp
  obtain ⟨hraise, hsaved⟩ := hp
  dsimp only at hraise
  obtain ⟨data, hd, hdata⟩ := (Option.any_eq_true ..).mp working_connection
  simp only [Bool.and_eq_true, beq_iff_eq, Option.isSome_iff_ne_none] at hdata
  refine ⟨log, ps, w, effects, run, ?_, hsaved, data, callback_keeps_working run hd hdata.1 hdata.2⟩
  split at hraise
  · rename_i e he
    rw [he]
    simpa using hraise
  · cases hraise

end Woodhouse.Gateway
