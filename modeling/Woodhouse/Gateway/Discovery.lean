import Woodhouse.Gateway.TokenVersions

namespace Woodhouse.Gateway
open Effects

variable {ι : Type} {sha256Hex : String → String} {user : String}

def saves (user : String) : OnboardingEvent → Bool
  | ⟨.saveConnection owner _ _, .ok _⟩ => owner = user
  | _ => false

/-- The region and base URL a committed `complete_connection` stored. -/
def completes (user : String) : OnboardingEvent → Option (String × String)
  | ⟨.updateCompleted owner region baseUrl, .ok ()⟩ =>
    if owner = user then some (region, baseUrl) else none
  | _ => none

/-- What `complete_connection` stored last, forgotten at the next `save_connection`. -/
def discovery (user : String) (log : GatewayLog ι) : Option (String × String) :=
  log.foldl (fun found entry =>
    if saves user entry.2 then none else (completes user entry.2).or found) none

/-- Status 'connected' means discovered since the last save. -/
def ConnectedMeansDiscovered (user : String) (log : GatewayLog ι) (w : World) : Prop :=
  ∀ doc, w.db.connections user = some doc → doc.status = .connected →
    ∃ region baseUrl, discovery user log = some (region, baseUrl) ∧
      doc.region = some region ∧ doc.baseUrl = baseUrl

theorem discovery_snoc (user : String) (log : GatewayLog ι) (i : ι) (e : OnboardingEvent) :
    discovery user (log ++ [(i, e)]) =
      if saves user e then none else (completes user e).or (discovery user log) := by
  simp [discovery]

/-- How one answered call moves region, base URL and status. -/
inductive DiscoveryStep (user : String) :
    OnboardingEvent → Option ConnectionDocument → Option ConnectionDocument → Prop
  | save (e old doc) (saved : saves user e = true) (region : doc.region = none)
      (status : doc.status = .discoveryPending) : DiscoveryStep user e old (some doc)
  | complete (data region baseUrl) :
      DiscoveryStep user ⟨.updateCompleted user region baseUrl, .ok ()⟩ (some data)
        (some { data with region := some region, baseUrl, status := .connected })
  | rotate (v tokens connection data) (doc : ConnectionDocument)
      (region : doc.region = data.region) (baseUrl : doc.baseUrl = data.baseUrl)
      (status : doc.status = .connected) :
      DiscoveryStep user ⟨.rotateTokens user v tokens, .ok connection⟩ (some data) (some doc)
  | mark (data) :
      DiscoveryStep user ⟨.markReauthorizationRequired user, .ok ()⟩ (some data)
        (some { data with status := .reauthorizationRequired })
  | other (e doc) (noSave : saves user e = false) (noCompletion : completes user e = none) :
      DiscoveryStep user e doc doc

section Step
variable {w w' : World} {choice : Choice}

theorem saveConnection_step {tokens : TokenSet} {baseUrl : String} {c : TeslaConnection}
    (does : onboardingMachine sha256Hex w (.saveConnection user tokens baseUrl) choice =
      some (.ok c, w')) :
    ∃ doc, w'.db.connections user = some doc ∧ doc.encryptedTokens = tokens ∧
      doc.region = none ∧ doc.baseUrl = baseUrl ∧ doc.status = .discoveryPending ∧
      c.baseUrl = baseUrl := by
  cases choice with
  | failure e => cases (failure_step does).1
  | freshId id =>
    obtain ⟨hc, rfl⟩ := Prod.mk.inj (Option.some.inj does)
    obtain rfl := Except.ok.inj hc
    exact ⟨_, Database.setConnection_self .., rfl, rfl, rfl, rfl, rfl⟩
  | _ => cases does

theorem rotateTokens_step {v : Nat} {tokens : TokenSet} {c : TeslaConnection}
    (does : onboardingMachine sha256Hex w (.rotateTokens user v tokens) choice = some (.ok c, w')) :
    ∃ data doc, w.db.connections user = some data ∧ w'.db.connections user = some doc ∧
      doc.region = data.region ∧ doc.baseUrl = data.baseUrl ∧ doc.status = .connected := by
  cases choice with
  | failure e => cases (failure_step does).1
  | success =>
    rcases commit_eq (Option.some.inj does) with ⟨c', db, hx, _, rfl⟩ | ⟨e, _, hr, _⟩
    · unfold Database.rotateTokens at hx
      split at hx
      · cases hx
      · rename_i data hd
        split at hx
        · cases hx
        · split at hx
          · cases hx
          · dsimp only at hx
            split at hx
            · cases hx
            · obtain ⟨_, rfl⟩ := Prod.mk.inj (Except.ok.inj hx)
              exact ⟨data, _, hd, Database.setConnection_self .., rfl, rfl, rfl⟩
    · cases hr
  | _ => cases does

theorem updateCompleted_step {region baseUrl : String}
    (does : onboardingMachine sha256Hex w (.updateCompleted user region baseUrl) choice =
      some (.ok (), w')) :
    ∃ data, w.db.connections user = some data ∧ w'.db.connections user =
      some { data with region := some region, baseUrl, status := .connected } := by
  cases choice with
  | failure e => cases (failure_step does).1
  | success =>
    rcases commitUnit_eq (Option.some.inj does) with ⟨db, hx, _, rfl⟩ | ⟨e, _, hr, _⟩
    · obtain ⟨data, hd, rfl⟩ := updateCompleted_ok hx
      exact ⟨data, hd, Database.setConnection_self ..⟩
    · cases hr
  | _ => cases does

theorem completes_eq {e : OnboardingEvent} {found : String × String}
    (h : completes user e = some found) :
    e = ⟨.updateCompleted user found.1 found.2, .ok ()⟩ := by
  unfold completes at h
  split at h
  · split at h
    · rename_i ho
      subst ho
      obtain rfl := Option.some.inj h
      rfl
    · cases h
  · cases h

theorem not_saves_of_writes {e : OnboardingEvent} (h : writes user e = none) :
    saves user e = false := by
  unfold saves
  split
  · simpa [writes] using h
  · rfl

theorem discoveryStep (user : String) {call : Call} {r : Except Exc call.Ret}
    (does : onboardingMachine sha256Hex w call choice = some (r, w')) :
    DiscoveryStep user ⟨call, r⟩ (w.db.connections user) (w'.db.connections user) := by
  cases hc : completes user ⟨call, r⟩ with
  | some found =>
    cases completes_eq hc
    obtain ⟨data, hd, hd'⟩ := updateCompleted_step does
    rw [hd, hd']
    exact .complete data found.1 found.2
  | none =>
    have hs := docStep sha256Hex user does
    generalize hold : w.db.connections user = old at hs ⊢
    generalize hnew : w'.db.connections user = new at hs ⊢
    cases hs with
    | save old tokens baseUrl c doc =>
      obtain ⟨doc', hd, _, hregion, _, hstatus, _⟩ := saveConnection_step does
      obtain rfl := Option.some.inj (hnew.symm.trans hd)
      exact .save _ _ _ (by simp [saves]) hregion hstatus
    | rotate data tokens c doc =>
      obtain ⟨data', doc', hd, hd', hregion, hbase, hstatus⟩ := rotateTokens_step does
      obtain rfl := Option.some.inj (hold.symm.trans hd)
      obtain rfl := Option.some.inj (hnew.symm.trans hd')
      exact .rotate _ _ _ _ _ hregion hbase hstatus
    | complete data region baseUrl => exact .complete _ _ _
    | mark data => exact .mark _
    | read data c => exact .other _ _ rfl rfl
    | other _ _ hw => exact .other _ _ (not_saves_of_writes hw) hc

end Step

variable [DecidableEq ι] {owner : ι → String} {requests : ι → Request} {w₀ w : World}
  {log : GatewayLog ι} {ps : ι → Onboarding Reply}

/-- Region and base URL of the document are those discovered since the last save. -/
def TracksDiscovery (user : String) (log : GatewayLog ι) (w : World) : Prop :=
  ∀ doc, w.db.connections user = some doc →
    doc.region = (discovery user log).map Prod.fst ∧
      ∀ found, discovery user log = some found → doc.baseUrl = found.2

theorem tracksDiscovery_run {α : Type} {ps₀ ps : ι → Onboarding α}
    (h₀ : w₀.db.connections user = none)
    (run : Run (onboardingMachine sha256Hex) ps₀ w₀ log ps w) : TracksDiscovery user log w := by
  refine run.invariant ?_ ?_
  · intro doc hd
    rw [h₀] at hd
    cases hd
  · intro log ps w i call k choice r w' _ _ does ih
    unfold TracksDiscovery at ih ⊢
    rw [discovery_snoc]
    have hs := discoveryStep user does
    generalize w.db.connections user = old at hs ih
    generalize w'.db.connections user = new at hs ⊢
    intro doc hd
    cases hs with
    | save _ _ _ hsave hregion hstatus =>
      obtain rfl := Option.some.inj hd
      rw [hsave]
      exact ⟨hregion, by simp⟩
    | complete data region baseUrl =>
      obtain rfl := Option.some.inj hd
      simp [saves, completes]
    | rotate v tokens c data _ hregion hbase hstatus =>
      obtain rfl := Option.some.inj hd
      obtain ⟨hr, hb⟩ := ih data rfl
      simp only [saves, completes, Bool.false_eq_true, if_false, Option.none_or]
      exact ⟨hregion.trans hr, fun found hf => hbase.trans (hb found hf)⟩
    | mark data =>
      obtain rfl := Option.some.inj hd
      obtain ⟨hr, hb⟩ := ih data rfl
      exact ⟨hr, hb⟩
    | other _ _ hsave hcomplete =>
      rw [hsave, hcomplete]
      exact ih doc hd

/-- Every committed rotation of the run updates a document whose region is discovered. -/
def RotatesDiscovered (sha256Hex : String → String) (ps₀ : ι → Onboarding Reply) (w₀ : World)
    (user : String) (log : GatewayLog ι) (ps : ι → Onboarding Reply) (w : World) : Prop :=
  ∀ pre post i v tokens c t t', log = pre ++ (i, ⟨.rotateTokens user v tokens, .ok c⟩) :: post →
    Run.Takes (onboardingMachine sha256Hex) ps₀ w₀ pre i (.rotateTokens user v tokens) (.ok c)
      post ps w t t' →
    ∀ data, t.db.connections user = some data → data.region ≠ none

theorem connected_region {ps₀ : ι → Onboarding Reply} (h₀ : w₀.db.connections user = none)
    (run : Run (onboardingMachine sha256Hex) ps₀ w₀ log ps w)
    (hrot : RotatesDiscovered sha256Hex ps₀ w₀ user log ps w) :
    ∀ doc, w.db.connections user = some doc → doc.status = .connected → doc.region ≠ none := by
  induction run with
  | start =>
    intro doc hd
    rw [h₀] at hd
    cases hd
  | @step log ps w i call k choice r w' before turn does ih =>
    have ih := ih (by
      rintro pre post j v tokens c t t' rfl htakes
      exact hrot pre (post ++ [(i, ⟨call, r⟩)]) j v tokens c t t' (by simp)
        (htakes.trans (Run.single turn does)))
    have hlast := hrot log [] i
    have hs := discoveryStep user does
    intro doc hd hst
    generalize hold : w.db.connections user = old at hs ih
    rw [hd] at hs
    cases hs with
    | save _ _ _ _ _ hstatus =>
      rw [hstatus] at hst
      cases hst
    | complete data region baseUrl => simp
    | rotate v tokens c data _ hregion =>
      rw [hregion]
      exact hlast v tokens c w w' rfl ⟨ps, choice, k, before, turn, does, .start⟩ data hold
    | mark data => cases hst
    | other _ _ _ _ => exact ih doc rfl hst

/-- In every state a run passes through 'connected' means discovered, exactly when
each of its rotations finds the discovery already stored. -/
theorem connected_discovered_iff (h₀ : w₀.db.connections user = none)
    (run : Run (onboardingMachine sha256Hex) (fun i => requestProgram (owner i) (requests i)) w₀
      log ps w) :
    (∀ pre post t, log = pre ++ post →
        Run.Through (onboardingMachine sha256Hex) (fun i => requestProgram (owner i) (requests i))
          w₀ pre post ps w t → ConnectedMeansDiscovered user pre t) ↔
      RotatesDiscovered sha256Hex (fun i => requestProgram (owner i) (requests i)) w₀ user log ps w := by
  constructor
  · rintro hall pre post i v tokens c t t' rfl htakes data hd
    have hthrough := htakes.through
    obtain ⟨qs, choice, k, _, _, does, _⟩ := htakes
    obtain ⟨data', doc, hd', hdoc, hregion, _, hstatus⟩ := rotateTokens_step does
    obtain rfl := Option.some.inj (hd.symm.trans hd')
    obtain ⟨region, _, _, hstored, _⟩ := hall _ post t' (by simp) hthrough doc hdoc hstatus
    rw [← hregion, hstored]
    simp
  · rintro hrot pre post t rfl ⟨qs, before, after⟩ doc hd hst
    have hregion : doc.region ≠ none := by
      refine connected_region h₀ before ?_ doc hd hst
      rintro pre' post' i v tokens c s s' rfl htakes
      exact hrot pre' (post' ++ post) i v tokens c s s' (by simp) (htakes.trans after)
    obtain ⟨htrack, hbase⟩ := tracksDiscovery_run h₀ before doc hd
    cases hfound : discovery user pre with
    | none =>
      rw [hfound] at htrack
      exact absurd htrack hregion
    | some found =>
      rw [hfound] at htrack
      exact ⟨found.1, found.2, rfl, htrack, hbase found hfound⟩

/-- A store with one created OAuth state and no connection. -/
def startedWorld : World :=
  { db :=
      { oauthStates := Function.update (fun _ => none) "state" (some
          { ownerUserId := "user", nonce := "nonce", expiresAt := 1 })
        connections := fun _ => none
        vehicles := fun _ => none
        vinIndex := fun _ => none }
    spent := []
    issued := [] }

/-- A callback and an operator's rotation of the same user. -/
def callbackAndRotation (i : Bool) : Request :=
  if i then .rotateRefreshToken else .callback "https://fleet" "state" "code" none (some 0)

/-- The callback fails at the region lookup, and then the token is rotated. -/
def undiscoveredSchedule : List (Bool × Choice) :=
  [(false, .success), (false, .tokens (tokenSet "0")), (false, .freshId "conn"),
    (false, .failure (.teslaApi "upstream_unavailable")), (true, .success),
    (true, .tokens (tokenSet "1")), (true, .success)]

theorem undiscovered_connected :
    startedWorld.db.connections "user" = none ∧
    ∃ log ps w, Run (onboardingMachine id) (fun i => requestProgram "user" (callbackAndRotation i))
        startedWorld log ps w ∧
      (∀ i, (ps i).finished = true) ∧ ¬ ConnectedMeansDiscovered "user" log w := by
  refine ⟨rfl, ?_⟩
  obtain ⟨log, ps, w, run, hp⟩ := run_of_schedule (onboardingMachine id)
    (fun i => requestProgram "user" (callbackAndRotation i)) startedWorld undiscoveredSchedule
    (fun x => (x.2.1 false).finished && (x.2.1 true).finished &&
      (x.2.2.db.connections "user").any (fun doc =>
        doc.status == .connected && doc.region == none)) (by rfl)
  simp only [Bool.and_eq_true] at hp
  obtain ⟨⟨hf, ht⟩, hd⟩ := hp
  refine ⟨log, ps, w, run, fun i => by cases i <;> assumption, ?_⟩
  intro hall
  obtain ⟨doc, hdoc, hx⟩ := (Option.any_eq_true ..).mp hd
  simp only [Bool.and_eq_true, beq_iff_eq] at hx
  obtain ⟨region, _, _, hregion, _⟩ := hall doc hdoc hx.1
  rw [hx.2] at hregion
  cases hregion

/-- The discovery completes before the token is rotated. -/
def discoveredSchedule : List (Bool × Choice) :=
  [(false, .success), (false, .tokens (tokenSet "0")), (false, .freshId "conn"),
    (false, .regionIs ⟨"na", "https://fleet-na"⟩), (false, .vehiclesAre []),
    (false, .statusesAre (fun _ => none)), (false, .success), (false, .success),
    (false, .success), (true, .success), (true, .tokens (tokenSet "1")), (true, .success)]

theorem connected_discovered_iff_completed :
    ∃ log ps w, log.length = 12 ∧ ((∀ pre post t, log = pre ++ post →
        Run.Through (onboardingMachine id)
          (fun i => requestProgram "user" (callbackAndRotation i)) startedWorld pre post ps w t →
        ConnectedMeansDiscovered "user" pre t) ↔
      RotatesDiscovered id (fun i => requestProgram "user" (callbackAndRotation i)) startedWorld
        "user" log ps w) := by
  obtain ⟨log, ps, w, run, hp⟩ := run_of_schedule (onboardingMachine id)
    (fun i => requestProgram "user" (callbackAndRotation i)) startedWorld discoveredSchedule
    (fun x => x.1.length == 12) (by rfl)
  refine ⟨log, ps, w, by simpa using hp, ?_⟩
  exact connected_discovered_iff rfl run

end Woodhouse.Gateway
