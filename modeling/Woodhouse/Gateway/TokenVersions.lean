import Woodhouse.Gateway.Issuance

namespace Woodhouse.Gateway
open Effects

variable {ι : Type} {sha256Hex : String → String} {user : String}

/-- The last three calls of an access-token request that lost its rotation. -/
def Reloaded (user : String) (h : List OnboardingEvent) (answer : String × TeslaConnection) : Prop :=
  ∃ before refreshToken subject version mine message,
    h = before ++ [⟨.refresh refreshToken subject,.ok mine⟩,
      ⟨.rotateTokens user version mine,.error (.concurrentTokenRotation message)⟩,
      ⟨.getConnection user,.ok answer.2⟩] ∧
    answer.1 = answer.2.tokens.accessToken

def Quiet (user : String) (h : List OnboardingEvent) : Prop :=
  ∀ e ∈ h, conflicts user e = false

theorem Quiet.snoc {h : List OnboardingEvent} {e : OnboardingEvent} (hq : Quiet user h)
    (he : conflicts user e = false) : Quiet user (h ++ [e]) := by
  intro d hd
  rcases List.mem_append.mp hd with hd | hd
  · exact hq d hd
  · rw [List.mem_singleton.mp hd]
    exact he

/-- An access-token request answers without a conflict or from a reload. -/
def AccessAnswer (user : String) (h : List OnboardingEvent)
    (r : Except Exc (String × TeslaConnection)) : Prop :=
  ∀ answer, r = .ok answer → Quiet user h ∨ Reloaded user h answer

theorem answer_commit {h : List OnboardingEvent} {c : TeslaConnection} {t : TokenSet}
    {refreshToken subject : String} (hq : Quiet user h) :
    Obeys (fun _ _ => True) (AccessAnswer user)
      (commitRotation user c t >>= fun connection =>
        pure (connection.tokens.accessToken,connection))
      (h ++ [⟨.refresh refreshToken subject,.ok t⟩]) := by
  refine ⟨trivial,?_⟩
  have hr := hq.snoc (e := ⟨.refresh refreshToken subject,.ok t⟩) rfl
  intro r
  cases r with
  | ok connection =>
    intro answer ha
    exact .inl (hr.snoc rfl)
  | error e =>
    cases e with
    | concurrentTokenRotation message =>
      refine ⟨trivial,?_⟩
      intro r
      cases r with
      | ok connection =>
        intro answer ha
        obtain rfl := Except.ok.inj ha
        exact .inr ⟨h,refreshToken,subject,c.tokenVersion,t,message,by simp,rfl⟩
      | error e =>
        intro answer ha
        cases ha
    | _ =>
      intro answer ha
      cases ha

theorem answer_rotation {h : List OnboardingEvent} {c : TeslaConnection} (hq : Quiet user h) :
    Obeys (fun _ _ => True) (AccessAnswer user) (do
      let rotated ← refreshTokens user c
      let connection ← commitRotation user c rotated
      return (connection.tokens.accessToken,connection)) h := by
  refine ⟨trivial,?_⟩
  intro r
  cases r with
  | ok t => exact answer_commit hq
  | error e =>
    cases e with
    | teslaReauthorizationRequired message =>
      refine ⟨trivial,?_⟩
      intro r
      cases r <;> exact fun answer ha => by cases ha
    | _ =>
      intro answer ha
      cases ha

theorem answer_connection {h : List OnboardingEvent} {current : Int} {force : Bool}
    (hq : Quiet user h) :
    Obeys (fun _ _ => True) (AccessAnswer user) (do
      let connection ← perform (.getConnection user)
      if connection.status = .reauthorizationRequired then
        throw reauthorizationRequired
      else if force = false ∧ connection.tokens.expiresAt > current + accessTokenRefreshSkew then
        return (connection.tokens.accessToken,connection)
      else
        let rotated ← refreshTokens user connection
        let connection ← commitRotation user connection rotated
        return (connection.tokens.accessToken,connection)) h := by
  refine ⟨trivial,?_⟩
  intro r
  cases r with
  | error e =>
    intro answer ha
    cases ha
  | ok c =>
    have hr := hq.snoc (e := ⟨.getConnection user,.ok c⟩) rfl
    simp only [Prog.ofExcept_ok,Prog.bind_ret_eq]
    split
    · intro answer ha
      cases ha
    · split
      · exact fun answer ha => .inl hr
      · exact answer_rotation hr

theorem answer_accessToken (now : Option Int) (force : Bool) :
    Obeys (fun _ _ => True) (AccessAnswer user) (accessToken user now force) [] := by
  have hn : Quiet user [] := fun e he => by cases he
  cases now with
  | some current => exact answer_connection hn
  | none =>
    refine ⟨trivial,?_⟩
    intro r
    cases r with
    | ok current => exact answer_connection (hn.snoc rfl)
    | error e =>
      intro answer ha
      cases ha

theorem reloaded_of_conflict {now : Option Int} {force : Bool} {es : List OnboardingEvent}
    {answer : String × TeslaConnection} (ht : Trace (accessToken user now force) es (.ret answer))
    (hc : ∃ e ∈ es, conflicts user e = true) : Reloaded user es answer := by
  have ha := (answer_accessToken now force).trace ht
  obtain ⟨e,he,hc⟩ := hc
  rcases ha answer rfl with hq | hr
  · have := hq e (by simpa using he)
    rw [hc] at this
    cases this
  · simpa using hr

variable [DecidableEq ι]

/-- What serialized token writes mean for one run of requests on `user`'s connection. -/
structure TokenWritesSerialize (sha256Hex : String → String) (user : String)
    (ps₀ : ι → Onboarding Reply) (w₀ : World) (log : GatewayLog ι) (ps : ι → Onboarding Reply)
    (w : World) : Prop where
  /-- The version counts the commits that write the stored tokens. -/
  counted : ∀ pre i e post, log = pre ++ (i,e) :: post → ∃ t t',
    Run.Around (onboardingMachine sha256Hex) ps₀ w₀ pre e post ps w t t' ∧ WritesTokens user e t t'
  /-- A rotation commits only if no token write did since the read of its version. -/
  unraced : ∀ pre i v tokens c post, log = pre ++ (i,⟨.rotateTokens user v tokens,.ok c⟩) :: post →
    ∃ p₀ p₁ read, pre = p₀ ++ (i,⟨.getConnection user,.ok read⟩) :: p₁ ∧ read.tokenVersion = v ∧
      (∀ e ∈ localEvents i p₁, reads user e = none) ∧
      ∀ entry ∈ p₁, writes user entry.2 = none
  /-- A rotation that loses its version check says so, and none that fails writes. -/
  lost : ∀ pre i v tokens r post, log = pre ++ (i,⟨.rotateTokens user v tokens,r⟩) :: post →
    ∃ t t' data, Run.Around (onboardingMachine sha256Hex) ps₀ w₀ pre ⟨.rotateTokens user v tokens,r⟩
        post ps w t t' ∧
      t.db.connections user = some data ∧
      (data.tokenVersion ≠ v →
        r = .error (.concurrentTokenRotation "Tesla token was already rotated") ∨
        ∃ name, r = .error (.other name)) ∧
      (∀ message, r = .error (.concurrentTokenRotation message) → data.tokenVersion ≠ v) ∧
      (∀ e, r = .error e → t' = t)
  /-- A losing access-token request answers with what it reads after its conflict. -/
  reloaded : ∀ i before es after now force answer,
    localEvents i log = before ++ es ++ after →
    Trace (accessToken user now force) es (.ret answer) → (∃ e ∈ es, conflicts user e = true) →
    ∃ p₀ p₁ p₂ p₃ refreshToken subject version mine message, log =
      p₀ ++ (i,⟨.refresh refreshToken subject,.ok mine⟩) ::
      (p₁ ++ (i,⟨.rotateTokens user version mine,.error (.concurrentTokenRotation message)⟩) ::
      (p₂ ++ (i,⟨.getConnection user,.ok answer.2⟩) :: p₃)) ∧
      answer.1 = answer.2.tokens.accessToken ∧ answer.1 ≠ mine.accessToken ∧
      ∃ t qs, Run (onboardingMachine sha256Hex) ps₀ w₀
          (p₀ ++ (i,⟨.refresh refreshToken subject,.ok mine⟩) :: (p₁ ++
            (i,⟨.rotateTokens user version mine,.error (.concurrentTokenRotation message)⟩) :: p₂))
          qs t ∧
        storedTokens user t = some answer.2.tokens

section Requests
variable {requests : ι → Request} {w₀ w : World} {log : GatewayLog ι} {ps : ι → Onboarding Reply}

theorem counted_run {α : Type} {ps₀ ps : ι → Onboarding α} {pre post : GatewayLog ι} {i : ι}
    {e : OnboardingEvent}
    (run : Run (onboardingMachine sha256Hex) ps₀ w₀ (pre ++ (i,e) :: post) ps w) :
    ∃ t t', Run.Around (onboardingMachine sha256Hex) ps₀ w₀ pre e post ps w t t' ∧
      WritesTokens user e t t' := by
  obtain ⟨t,t',ha⟩ := run.around
  have hstep := ha
  obtain ⟨_,_,c,_,does,_⟩ := hstep
  exact ⟨t,t',ha,writes_step user does⟩

/-- A connection that was read is never deleted. -/
theorem present_run {α : Type} {ps₀ ps : ι → Onboarding α} {i : ι} {c : TeslaConnection}
    (run : Run (onboardingMachine sha256Hex) ps₀ w₀ log ps w)
    (hr : (i,(⟨.getConnection user,.ok c⟩ : OnboardingEvent)) ∈ log) :
    ∃ data, w.db.connections user = some data := by
  obtain ⟨pre,post,rfl⟩ := List.append_of_mem hr
  obtain ⟨_,t,choice,_,t',_,_,does,after⟩ := run.at_event
  have hpresent : ∃ data, t'.db.connections user = some data := by
    have hs := docStep sha256Hex user does
    generalize t.db.connections user = old at hs
    generalize t'.db.connections user = new at hs
    cases hs with
    | read data => exact ⟨data,rfl⟩
    | other _ _ _ hr => simp [reads] at hr
  refine after.state_invariant (I := fun w => ∃ data, w.db.connections user = some data) hpresent ?_
  intro s op c r s' does hp
  have hs := docStep sha256Hex user does
  generalize s.db.connections user = old at hs hp
  generalize s'.db.connections user = new at hs
  cases hs with
  | other => exact hp
  | _ => exact ⟨_,rfl⟩

theorem lost_run {pre post : GatewayLog ι} {i : ι} {v : Nat} {tokens : TokenSet}
    {r : Except Exc TeslaConnection}
    (run : Run (onboardingMachine sha256Hex) (fun i => requestProgram user (requests i)) w₀
      (pre ++ (i,⟨.rotateTokens user v tokens,r⟩) :: post) ps w) :
    ∃ t t' data, Run.Around (onboardingMachine sha256Hex)
        (fun i => requestProgram user (requests i)) w₀ pre ⟨.rotateTokens user v tokens,r⟩
        post ps w t t' ∧
      t.db.connections user = some data ∧
      (data.tokenVersion ≠ v →
        r = .error (.concurrentTokenRotation "Tesla token was already rotated") ∨
        ∃ name, r = .error (.other name)) ∧
      (∀ message, r = .error (.concurrentTokenRotation message) → data.tokenVersion ≠ v) ∧
      (∀ e, r = .error e → t' = t) := by
  obtain ⟨_,read,hread,_,_⟩ := allowed_at run
  obtain ⟨t,t',ha⟩ := run.around
  have hstep := ha
  obtain ⟨_,_,c,before,does,_⟩ := hstep
  obtain ⟨b,a,hl,_⟩ := lastRead_split hread
  have hm : (⟨.getConnection user,.ok read⟩ : OnboardingEvent) ∈ localEvents i pre := by
    rw [hl]
    simp
  obtain ⟨data,hd⟩ := present_run before (mem_local.mp hm)
  obtain ⟨hlose,hwin⟩ := rotate_step hd does
  refine ⟨t,t',data,ha,hd,hlose,hwin,?_⟩
  intro e he
  subst he
  exact error_step does

theorem reloaded_run {i : ι} {before es after : List OnboardingEvent} {now : Option Int}
    {force : Bool} {answer : String × TeslaConnection}
    (known : ∀ t, storedTokens user w₀ = some t → t.accessToken ∈ w₀.issued)
    (run : Run (onboardingMachine sha256Hex) (fun i => requestProgram user (requests i)) w₀ log ps w)
    (hl : localEvents i log = before ++ es ++ after)
    (ht : Trace (accessToken user now force) es (.ret answer))
    (hc : ∃ e ∈ es, conflicts user e = true) :
    ∃ p₀ p₁ p₂ p₃ refreshToken subject version mine message, log =
      p₀ ++ (i,⟨.refresh refreshToken subject,.ok mine⟩) ::
      (p₁ ++ (i,⟨.rotateTokens user version mine,.error (.concurrentTokenRotation message)⟩) ::
      (p₂ ++ (i,⟨.getConnection user,.ok answer.2⟩) :: p₃)) ∧
      answer.1 = answer.2.tokens.accessToken ∧ answer.1 ≠ mine.accessToken ∧
      ∃ t qs, Run (onboardingMachine sha256Hex) (fun i => requestProgram user (requests i)) w₀
          (p₀ ++ (i,⟨.refresh refreshToken subject,.ok mine⟩) :: (p₁ ++
            (i,⟨.rotateTokens user version mine,.error (.concurrentTokenRotation message)⟩) :: p₂))
          qs t ∧
        storedTokens user t = some answer.2.tokens := by
  obtain ⟨es₀,refreshToken,subject,version,mine,message,rfl,ha⟩ := reloaded_of_conflict ht hc
  have hl₀ : localEvents i log = (before ++ es₀) ++ ⟨.refresh refreshToken subject,.ok mine⟩ ::
      (⟨.rotateTokens user version mine,.error (.concurrentTokenRotation message)⟩ ::
        ⟨.getConnection user,.ok answer.2⟩ :: after) := by
    simpa using hl
  obtain ⟨p₀,q₀,rfl,_,hq₀⟩ := local_split hl₀
  obtain ⟨p₁,q₁,rfl,hp₁,hq₁⟩ := local_split_head hq₀
  obtain ⟨p₂,p₃,rfl,hp₂,_⟩ := local_split_head hq₁
  refine ⟨p₀,p₁,p₂,p₃,refreshToken,subject,version,mine,message,rfl,ha,?_⟩
  have hassoc := run
  rw [show ∀ (a b c : GatewayLog ι) (x y z : ι × OnboardingEvent) (d : GatewayLog ι),
    a ++ x :: (b ++ y :: (c ++ z :: d)) = (a ++ x :: (b ++ y :: c)) ++ z :: d by simp] at hassoc
  obtain ⟨qs,t,_,_,_,prefixRun,_,does,_⟩ := hassoc.at_event
  obtain ⟨_,hs,_⟩ := read_step does
  have hne : answer.2.tokens.accessToken ≠ mine.accessToken := by
    refine unstored_of_unwritten known prefixRun rfl ?_ hs
    intro e he
    simp only [local_append,local_cons_self,hp₁,hp₂,List.nil_append,List.mem_singleton] at he
    rw [he]
    rfl
  exact ⟨by rw [ha]; exact hne,t,qs,prefixRun,hs⟩

end Requests

/-- A token set whose three texts carry one label. -/
def tokenSet (label : String) : TokenSet :=
  { accessToken := "access-" ++ label, refreshToken := "refresh-" ++ label, expiresAt := 0
    scopes := [], teslaSubject := "subject" }

/-- A store with one connected user, and nothing in flight. -/
def connectedWorld : World :=
  { db :=
      { oauthStates := fun _ => none
        connections := Function.update (fun _ => none) "user" (some
          { connectionId := "conn", ownerUserId := "user", encryptedTokens := tokenSet "0"
            tokenVersion := 1, accessTokenExpiresAt := 0, grantedScopes := []
            teslaSubject := "subject", baseUrl := "https://fleet", region := some "na"
            status := .connected })
        vehicles := fun _ => none
        vinIndex := fun _ => none }
    spent := []
    issued := ["access-0","refresh-0"] }

/-- Both requests refresh the token they read; the second to commit loses and reloads. -/
def lostRaceSchedule : List (Bool × Choice) :=
  [(false,.success),(true,.success),(false,.tokens (tokenSet "1")),(true,.tokens (tokenSet "2")),
    (false,.success),(true,.success),(true,.success)]

end Woodhouse.Gateway
