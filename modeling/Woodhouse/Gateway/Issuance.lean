import Mathlib.Data.List.Nodup
import Woodhouse.Gateway.Rotation

namespace Woodhouse.Gateway
open Effects

variable {ι : Type} {sha256Hex : String → String} {user : String}

/-- The access tokens Tesla handed out along a log, in order. -/
def issuedAccess (log : GatewayLog ι) : List String :=
  log.filterMap (fun entry => (issues entry.2).map TokenSet.accessToken)

theorem issuedAccess_append (log rest : GatewayLog ι) :
    issuedAccess (log ++ rest) = issuedAccess log ++ issuedAccess rest :=
  List.filterMap_append

theorem mem_issuedAccess {log : GatewayLog ι} {i : ι} {e : OnboardingEvent} {t : TokenSet}
    (hm : (i,e) ∈ log) (ht : issues e = some t) : t.accessToken ∈ issuedAccess log :=
  List.mem_filterMap.mpr ⟨(i,e),hm,by rw [ht]; rfl⟩

theorem issuedAccess_cons {i : ι} {e : OnboardingEvent} {t : TokenSet} (ht : issues e = some t)
    (log : GatewayLog ι) : issuedAccess ((i,e) :: log) = t.accessToken :: issuedAccess log := by
  unfold issuedAccess
  rw [List.filterMap_cons_some]
  rw [ht]
  rfl

/-- The refresh token an answer shows to be spent: exchanged now, or refused. -/
def spends : OnboardingEvent → Option String
  | ⟨.refresh refreshToken _,.ok _⟩ => some refreshToken
  | ⟨.refresh refreshToken _,.error (.teslaReauthorizationRequired _)⟩ => some refreshToken
  | _ => none

/-- How a call is answered, as far as tokens are concerned: it fails without an
effect, Tesla hands out a fresh set, the answer to a refresh gets lost, or the
call has nothing to do with the token endpoint. -/
inductive Answered (w : World) : OnboardingEvent → Choice → World → Prop
  | failed (call e) (may : Call.canRaise call e = true) :
      Answered w ⟨call,.error e⟩ (.failure e) w
  | refreshed (refreshToken subject t) (fresh : w.fresh t = true) :
      Answered w ⟨.refresh refreshToken subject,.ok t⟩ (.tokens t) ((w.spend refreshToken).issue t)
  | lost (refreshToken subject e) (kind : Exc.isReauthorization e = false) :
      Answered w ⟨.refresh refreshToken subject,.error e⟩ (.honouredThenLost e)
        (w.spend refreshToken)
  | exchanged (code nonce t) (fresh : w.fresh t = true) :
      Answered w ⟨.exchangeCode code nonce,.ok t⟩ (.tokens t) (w.issue t)
  | stored (e choice db) (noIssue : issues e = none) (noSpend : spends e = none)
      (accepted : rejected e = false) : Answered w e choice { w with db }

section StoreErrors
variable {db : Database} {owner : String} {e : Exc}

theorem consumeState_error {state : String} {now : Int}
    (h : db.consumeState sha256Hex state now = .error e) : e.isReauthorization = false := by
  unfold Database.consumeState at h
  split at h
  · cases h
    rfl
  · split at h
    · cases h
      rfl
    · split at h
      · cases h
        rfl
      · split at h
        · cases h
          rfl
        · cases h

theorem connectionFromData_error {data : ConnectionDocument}
    (h : Database.connectionFromData owner data = .error e) : e.isReauthorization = false := by
  unfold Database.connectionFromData at h
  split at h
  · cases h
    rfl
  · cases h

theorem getConnection_error (h : db.getConnection owner = .error e) :
    e.isReauthorization = false := by
  unfold Database.getConnection at h
  split at h
  · cases h
    rfl
  · exact connectionFromData_error h

theorem rotateTokens_error {v : Nat} {t : TokenSet} (h : db.rotateTokens owner v t = .error e) :
    e.isReauthorization = false := by
  unfold Database.rotateTokens at h
  split at h
  · cases h
    rfl
  · split at h
    · cases h
      rfl
    · split at h
      · cases h
        rfl
      · dsimp only at h
        split at h
        · rename_i hf
          cases h
          exact connectionFromData_error hf
        · cases h

theorem updateCompleted_error {region baseUrl : String}
    (h : db.updateCompleted owner region baseUrl = .error e) : e.isReauthorization = false := by
  unfold Database.updateCompleted at h
  split at h
  · cases h
    rfl
  · cases h

theorem markReauthorizationRequired_error (h : db.markReauthorizationRequired owner = .error e) :
    e.isReauthorization = false := by
  unfold Database.markReauthorizationRequired at h
  split at h
  · cases h
    rfl
  · cases h

theorem requireVehicleOwner_error {record : VehicleRecord}
    (h : Database.requireVehicleOwner record owner = .error e) : e.isReauthorization = false := by
  unfold Database.requireVehicleOwner at h
  split at h
  · cases h
    rfl
  · split at h
    · cases h
      rfl
    · cases h

theorem getVehicle_error {vehicleId : String} (h : db.getVehicle owner vehicleId = .error e) :
    e.isReauthorization = false := by
  unfold Database.getVehicle at h
  split at h
  · cases h
    rfl
  · split at h
    · rename_i hr
      cases h
      exact requireVehicleOwner_error hr
    · cases h

theorem updateFleetStatus_error {vehicleId : String} {status : FleetStatus}
    (h : db.updateFleetStatus owner vehicleId status = .error e) : e.isReauthorization = false := by
  unfold Database.updateFleetStatus at h
  split at h
  · cases h
    rfl
  · split at h
    · rename_i hr
      cases h
      exact requireVehicleOwner_error hr
    · split at h
      · cases h
        rfl
      · cases h

theorem syncRecords_error {connectionId : String} {statuses : String → Option FleetStatus}
    {vehicles : List TeslaVehicle}
    (h : Database.syncRecords sha256Hex db owner connectionId statuses vehicles = .error e) :
    e.isReauthorization = false := by
  induction vehicles with
  | nil => cases h
  | cons vehicle rest ih =>
    unfold Database.syncRecords at h
    split at h
    · rename_i hr
      cases h
      unfold Database.resolveVehicleId at hr
      split at hr
      · cases hr
      · split at hr
        · cases hr
          rfl
        · split at hr
          · cases hr
            rfl
          · cases hr
    · split at h
      · rename_i hr
        cases h
        exact ih hr
      · cases h

theorem syncVehicles_error {connectionId : String} {vehicles : List TeslaVehicle}
    {statuses : String → Option FleetStatus}
    (h : db.syncVehicles sha256Hex owner connectionId vehicles statuses = .error e) :
    e.isReauthorization = false := by
  unfold Database.syncVehicles at h
  split at h
  · rename_i hr
    cases h
    exact syncRecords_error hr
  · cases h

end StoreErrors

/-- A store call neither issues nor spends, and never answers 401. -/
theorem answered_store {w w' : World} {call : Call} {r : Except Exc call.Ret}
    (does : onboardingMachine sha256Hex w call .success = some (r,w')) :
    Answered w ⟨call,r⟩ .success w' := by
  cases call with
  | consumeOauthState =>
    rcases commit_eq (Option.some.inj does) with ⟨_,_,_,rfl,rfl⟩ | ⟨_,hx,rfl,rfl⟩
    · exact .stored _ _ _ rfl rfl rfl
    · exact .stored _ _ w'.db rfl rfl (consumeState_error hx)
  | rotateTokens =>
    rcases commit_eq (Option.some.inj does) with ⟨_,_,_,rfl,rfl⟩ | ⟨_,hx,rfl,rfl⟩
    · exact .stored _ _ _ rfl rfl rfl
    · exact .stored _ _ w'.db rfl rfl (rotateTokens_error hx)
  | syncVehicles =>
    rcases commit_eq (Option.some.inj does) with ⟨_,_,_,rfl,rfl⟩ | ⟨_,hx,rfl,rfl⟩
    · exact .stored _ _ _ rfl rfl rfl
    · exact .stored _ _ w'.db rfl rfl (syncVehicles_error hx)
  | updateFleetStatus =>
    rcases commit_eq (Option.some.inj does) with ⟨_,_,_,rfl,rfl⟩ | ⟨_,hx,rfl,rfl⟩
    · exact .stored _ _ _ rfl rfl rfl
    · exact .stored _ _ w'.db rfl rfl (updateFleetStatus_error hx)
  | updateCompleted =>
    rcases commitUnit_eq (Option.some.inj does) with ⟨_,_,rfl,rfl⟩ | ⟨_,hx,rfl,rfl⟩
    · exact .stored _ _ _ rfl rfl rfl
    · exact .stored _ _ w'.db rfl rfl (updateCompleted_error hx)
  | markReauthorizationRequired =>
    rcases commitUnit_eq (Option.some.inj does) with ⟨_,_,rfl,rfl⟩ | ⟨_,hx,rfl,rfl⟩
    · exact .stored _ _ _ rfl rfl rfl
    · exact .stored _ _ w'.db rfl rfl (markReauthorizationRequired_error hx)
  | getConnection =>
    obtain ⟨hr,rfl⟩ := Prod.mk.inj (Option.some.inj does)
    cases r with
    | ok c => exact .stored _ _ w.db rfl rfl rfl
    | error e => exact .stored _ _ w.db rfl rfl (getConnection_error hr)
  | getVehicle =>
    obtain ⟨hr,rfl⟩ := Prod.mk.inj (Option.some.inj does)
    cases r with
    | ok c => exact .stored _ _ w.db rfl rfl rfl
    | error e => exact .stored _ _ w.db rfl rfl (getVehicle_error hr)
  | _ => cases does

theorem answered {w w' : World} {call : Call} {choice : Choice} {r : Except Exc call.Ret}
    (does : onboardingMachine sha256Hex w call choice = some (r,w')) :
    Answered w ⟨call,r⟩ choice w' := by
  cases choice with
  | failure e =>
    obtain ⟨rfl,rfl,hc⟩ := failure_step does
    exact .failed call e hc
  | success => exact answered_store does
  | tokens t =>
    cases call with
    | refresh refreshToken teslaSubject =>
      simp only [onboardingMachine] at does
      split at does
      · rename_i hc
        obtain ⟨rfl,rfl⟩ := Prod.mk.inj (Option.some.inj does)
        exact .refreshed _ _ _ hc.1
      · cases does
    | exchangeCode code nonce =>
      simp only [onboardingMachine] at does
      split at does
      · rename_i hc
        obtain ⟨rfl,rfl⟩ := Prod.mk.inj (Option.some.inj does)
        exact .exchanged _ _ _ hc
      · cases does
    | _ => cases does
  | honouredThenLost e =>
    cases call with
    | refresh refreshToken teslaSubject =>
      simp only [onboardingMachine] at does
      split at does
      · rename_i hc
        obtain ⟨rfl,rfl⟩ := Prod.mk.inj (Option.some.inj does)
        exact .lost _ _ _ (by simpa using hc.1)
      · cases does
    | _ => cases does
  | freshId id =>
    cases call with
    | saveConnection =>
      obtain ⟨rfl,rfl⟩ := Prod.mk.inj (Option.some.inj does)
      exact .stored _ _ _ rfl rfl rfl
    | _ => cases does
  | _ =>
    cases call <;> first
      | (obtain ⟨rfl,rfl⟩ := Prod.mk.inj (Option.some.inj does)
         exact .stored _ _ w.db rfl rfl rfl)
      | cases does

/-- What a call adds to the tokens handed out: nothing, or one fresh set. -/
theorem issue_step {w w' : World} {call : Call} {choice : Choice} {r : Except Exc call.Ret}
    (does : onboardingMachine sha256Hex w call choice = some (r,w')) :
    (issues ⟨call,r⟩ = none ∧ w'.issued = w.issued) ∨
    ∃ t, issues ⟨call,r⟩ = some t ∧ w.fresh t = true ∧
      w'.issued = t.accessToken :: t.refreshToken :: w.issued := by
  cases answered does with
  | failed => exact .inl ⟨by cases call <;> rfl,rfl⟩
  | refreshed _ _ t fresh => exact .inr ⟨t,rfl,fresh,rfl⟩
  | lost => exact .inl ⟨rfl,rfl⟩
  | exchanged _ _ t fresh => exact .inr ⟨t,rfl,fresh,rfl⟩
  | stored _ _ _ noIssue => exact .inl ⟨noIssue,rfl⟩

variable [DecidableEq ι] {α : Type} {ps₀ ps : ι → Onboarding α} {w₀ w : World} {log : GatewayLog ι}

/-- No access token is handed out twice, nor one that existed before the run. -/
structure Issued (w₀ : World) (log : GatewayLog ι) (w : World) : Prop where
  nodup : (issuedAccess log).Nodup
  new : ∀ token ∈ issuedAccess log, token ∉ w₀.issued
  known : ∀ token, token ∈ w₀.issued ∨ token ∈ issuedAccess log → token ∈ w.issued

theorem issued_run (run : Run (onboardingMachine sha256Hex) ps₀ w₀ log ps w) :
    Issued w₀ log w := by
  refine run.invariant (I := Issued w₀) ⟨List.nodup_nil,by simp [issuedAccess],?_⟩ ?_
  · intro token hm
    simpa [issuedAccess] using hm
  · intro log ps w i call k c r w' _ _ does ih
    rcases issue_step does with ⟨hn,hw⟩ | ⟨t,ht,hf,hw⟩
    · have hlog : issuedAccess (log ++ [(i,⟨call,r⟩)]) = issuedAccess log := by
        simp [issuedAccess,hn]
      refine ⟨by rw [hlog]; exact ih.nodup,by rw [hlog]; exact ih.new,?_⟩
      rw [hlog,hw]
      exact ih.known
    · have hlog : issuedAccess (log ++ [(i,⟨call,r⟩)]) = issuedAccess log ++ [t.accessToken] := by
        simp [issuedAccess,ht]
      have hfresh : t.accessToken ∉ w.issued := by
        have hf := of_decide_eq_true hf
        exact hf.1
      refine ⟨?_,?_,?_⟩
      · rw [hlog]
        refine List.Nodup.append ih.nodup (List.nodup_singleton _) ?_
        intro token hl hs
        rw [List.mem_singleton.mp hs] at hl
        exact hfresh (ih.known _ (.inr hl))
      · intro token hm
        rw [hlog] at hm
        rcases List.mem_append.mp hm with hm | hm
        · exact ih.new token hm
        · rw [List.mem_singleton.mp hm]
          exact fun h => hfresh (ih.known _ (.inl h))
      · intro token hm
        rw [hlog] at hm
        rw [hw]
        rcases hm with hm | hm
        · exact List.mem_cons_of_mem _ (List.mem_cons_of_mem _ (ih.known _ (.inl hm)))
        · rcases List.mem_append.mp hm with hm | hm
          · exact List.mem_cons_of_mem _ (List.mem_cons_of_mem _ (ih.known _ (.inr hm)))
          · rw [List.mem_singleton.mp hm]
            exact List.mem_cons_self

/-- Stored tokens are the first ones or those some committed call wrote. -/
theorem stored_run (run : Run (onboardingMachine sha256Hex) ps₀ w₀ log ps w) {tokens : TokenSet}
    (hs : storedTokens user w = some tokens) :
    storedTokens user w₀ = some tokens ∨ ∃ i e, (i,e) ∈ log ∧ writes user e = some tokens := by
  refine run.invariant (I := fun log w => ∀ tokens, storedTokens user w = some tokens →
    storedTokens user w₀ = some tokens ∨ ∃ i e, (i,e) ∈ log ∧ writes user e = some tokens)
    (fun _ h => .inl h) ?_ tokens hs
  clear hs
  intro log ps w i call k c r w' _ _ does ih tokens hs
  have hw := writes_step user does
  unfold WritesTokens at hw
  cases he : writes user ⟨call,r⟩ with
  | some t =>
    rw [he] at hw
    have ht : t = tokens := Option.some.inj (hw.2.symm.trans hs)
    subst ht
    exact .inr ⟨i,_,List.mem_append_right _ (List.mem_singleton.mpr rfl),he⟩
  | none =>
    rw [he] at hw
    rcases ih tokens (hw.2 ▸ hs) with h | ⟨j,e,hm,ht⟩
    · exact .inl h
    · exact .inr ⟨j,e,List.mem_append_left _ hm,ht⟩

/-- A request stores only a token set that Tesla handed to itself before. -/
theorem write_issued {requests : ι → Request} {ps : ι → Onboarding Reply} {pre post : GatewayLog ι}
    {j : ι} {e : OnboardingEvent} {tokens : TokenSet}
    (run : Run (onboardingMachine sha256Hex) (fun i => requestProgram user (requests i)) w₀
      (pre ++ (j,e) :: post) ps w) (hw : writes user e = some tokens) :
    ∃ e', (j,e') ∈ pre ∧ issues e' = some tokens := by
  obtain ⟨call,r⟩ := e
  have ha := allowed_at run
  unfold writes at hw
  split at hw
  · rename_i he
    cases he
    split at hw
    · cases hw
      obtain ⟨e',hm,ht⟩ := ha
      exact ⟨e',mem_local.mp hm,ht⟩
    · cases hw
  · rename_i he
    cases he
    split at hw
    · cases hw
      obtain ⟨_,c,_,_,hm⟩ := ha
      exact ⟨_,mem_local.mp hm,rfl⟩
    · cases hw
  · cases hw

/-- Tokens a request was handed and did not store since are not the stored ones. -/
theorem unstored_of_unwritten {requests : ι → Request} {ps : ι → Onboarding Reply}
    {pre post : GatewayLog ι} {i : ι} {e : OnboardingEvent} {mine tokens : TokenSet}
    (known : ∀ t, storedTokens user w₀ = some t → t.accessToken ∈ w₀.issued)
    (run : Run (onboardingMachine sha256Hex) (fun i => requestProgram user (requests i)) w₀
      (pre ++ (i,e) :: post) ps w)
    (hmine : issues e = some mine) (hpost : ∀ e ∈ localEvents i post, writes user e = none)
    (hs : storedTokens user w = some tokens) : tokens.accessToken ≠ mine.accessToken := by
  intro heq
  obtain ⟨hnodup,hnew,_⟩ := issued_run run
  rw [issuedAccess_append,issuedAccess_cons hmine] at hnodup hnew
  have hpre : mine.accessToken ∉ issuedAccess pre := fun hm =>
    (List.nodup_append.mp hnodup).2.2 _ hm _ List.mem_cons_self rfl
  have hpost' : mine.accessToken ∉ issuedAccess post :=
    (List.nodup_cons.mp (List.nodup_append.mp hnodup).2.1).1
  rcases stored_run run hs with h₀ | ⟨j,d,hm,hd⟩
  · have hold := known tokens h₀
    rw [heq] at hold
    exact hnew mine.accessToken (List.mem_append_right _ List.mem_cons_self) hold
  · -- the write comes before, at or after the moment the tokens were handed out
    rcases List.mem_append.mp hm with hm | hm
    · obtain ⟨x,y,rfl⟩ := List.append_of_mem hm
      have hrun : Run (onboardingMachine sha256Hex) (fun i => requestProgram user (requests i)) w₀
          (x ++ (j,d) :: (y ++ (i,e) :: post)) ps w := by simpa using run
      obtain ⟨e',hm',ht⟩ := write_issued hrun hd
      have := mem_issuedAccess (List.mem_append_left ((j,d) :: y) hm') ht
      rw [heq] at this
      exact hpre this
    · rcases List.mem_cons.mp hm with hm | hm
      · cases hm
        unfold issues at hmine
        split at hmine
        · simp [writes] at hd
        · simp [writes] at hd
        · cases hmine
      · obtain ⟨x,y,rfl⟩ := List.append_of_mem hm
        have hrun : Run (onboardingMachine sha256Hex) (fun i => requestProgram user (requests i)) w₀
            ((pre ++ (i,e) :: x) ++ (j,d) :: y) ps w := by simpa using run
        obtain ⟨e',hm',ht⟩ := write_issued hrun hd
        rcases List.mem_append.mp hm' with hm' | hm'
        · have := mem_issuedAccess hm' ht
          rw [heq] at this
          exact hpre this
        · rcases List.mem_cons.mp hm' with hm' | hm'
          · cases hm'
            have := hpost d (mem_local.mpr hm)
            rw [hd] at this
            cases this
          · have := mem_issuedAccess (List.mem_append_left ((j,d) :: y) hm') ht
            rw [heq] at this
            exact hpost' this

end Woodhouse.Gateway
