import Mathlib.Data.List.Induction
import Woodhouse.Gateway.Onboarding

namespace Woodhouse.Gateway
open Effects

def reads (user : String) : OnboardingEvent → Option TeslaConnection
  | ⟨.getConnection owner, .ok connection⟩ => if owner = user then some connection else none
  | _ => none

/-- The connection a request read last. -/
def lastRead (user : String) (h : List OnboardingEvent) : Option TeslaConnection :=
  h.reverse.findSome? (reads user)

/-- The token set an answer of Tesla handed out. -/
def issues : OnboardingEvent → Option TokenSet
  | ⟨.refresh _ _, .ok tokens⟩ => some tokens
  | ⟨.exchangeCode _ _, .ok tokens⟩ => some tokens
  | _ => none

/-- The token set a committed call stored in the user's connection. -/
def writes (user : String) : OnboardingEvent → Option TokenSet
  | ⟨.saveConnection owner tokens _, .ok _⟩ => if owner = user then some tokens else none
  | ⟨.rotateTokens owner _ tokens, .ok _⟩ => if owner = user then some tokens else none
  | _ => none

/-- A 401 from any endpoint but the token refresh. -/
def rejected : OnboardingEvent → Bool
  | ⟨.refresh _ _, _⟩ => false
  | ⟨_, .error e⟩ => e.isReauthorization
  | _ => false

def conflicts (user : String) : OnboardingEvent → Bool
  | ⟨.rotateTokens owner _ _, .error (.concurrentTokenRotation _)⟩ => owner = user
  | _ => false

theorem lastRead_snoc (user : String) (h : List OnboardingEvent) (e : OnboardingEvent) :
    lastRead user (h ++ [e]) = (reads user e).or (lastRead user h) := by
  unfold lastRead
  rw [List.reverse_append, List.reverse_singleton, List.singleton_append, List.findSome?_cons]
  cases reads user e <;> rfl

/-- The last read splits the history: nothing after it is a read. -/
theorem lastRead_split {user : String} {h : List OnboardingEvent} {c : TeslaConnection}
    (hc : lastRead user h = some c) :
    ∃ before after, h = before ++ ⟨.getConnection user, .ok c⟩ :: after ∧
      ∀ e ∈ after, reads user e = none := by
  induction h using List.reverseRecOn with
  | nil => cases hc
  | append_singleton h e ih =>
    rw [lastRead_snoc] at hc
    cases he : reads user e with
    | none =>
      rw [he] at hc
      obtain ⟨before, after, rfl, hn⟩ := ih hc
      refine ⟨before, after ++ [e], by simp, ?_⟩
      intro d hd
      rcases List.mem_append.mp hd with hd | hd
      · exact hn d hd
      · rw [List.mem_singleton.mp hd]
        exact he
    | some d =>
      rw [he] at hc
      obtain rfl : d = c := Option.some.inj hc
      refine ⟨h, [], ?_, by simp⟩
      unfold reads at he
      split at he
      · split at he
        · rename_i ho
          subst ho
          simp_all
        · cases he
      · cases he

/-- What gives a request grounds to mark the connection: the connection it read
already needs reauthorization, or Tesla refused its refresh token, or some other
endpoint answered 401. -/
def Ground (user : String) (h : List OnboardingEvent) : Prop :=
  (∃ c, lastRead user h = some c ∧ (c.status = .reauthorizationRequired ∨
    ∃ message, (⟨.refresh c.tokens.refreshToken c.tokens.teslaSubject,
      .error (.teslaReauthorizationRequired message)⟩ : OnboardingEvent) ∈ h)) ∨
  ∃ e ∈ h, rejected e = true

/-- When the requests make the calls that write a connection. -/
def Allowed (user : String) (h : List OnboardingEvent) : Call → Prop
  | .saveConnection _ tokens _ => ∃ e ∈ h, issues e = some tokens
  | .rotateTokens owner expectedVersion tokens => owner = user ∧
      ∃ c, lastRead user h = some c ∧ c.tokenVersion = expectedVersion ∧
        (⟨.refresh c.tokens.refreshToken c.tokens.teslaSubject, .ok tokens⟩ : OnboardingEvent) ∈ h
  | .markReauthorizationRequired owner => owner = user ∧ Ground user h
  | _ => True

/-- The calls of the requests that only use an existing connection. -/
def Call.keepsConnection : Call → Bool
  | .saveConnection .. | .updateCompleted .. | .exchangeCode .. => false
  | _ => true

def AllowedToken (user : String) (h : List OnboardingEvent) (call : Call) : Prop :=
  call.keepsConnection = true ∧ Allowed user h call

/-- A token path raises `TeslaReauthorizationRequired` only on a ground. -/
def Grounded {α : Type} (user : String) (h : List OnboardingEvent) (r : Except Exc α) : Prop :=
  ∀ message, r = .error (.teslaReauthorizationRequired message) → Ground user h

theorem Ground.rejection {user : String} {h : List OnboardingEvent} {call : Call} {message : String}
    (hr : ∀ rt subject, call ≠ .refresh rt subject) :
    Ground user (h ++ [⟨call, .error (.teslaReauthorizationRequired message)⟩]) := by
  refine .inr ⟨_, List.mem_append_right _ (List.mem_singleton.mpr rfl), ?_⟩
  cases call <;> first | rfl | exact absurd rfl (hr _ _)

theorem grounded_perform {user : String} {h : List OnboardingEvent} (call : Call)
    (hr : ∀ rt subject, call ≠ .refresh rt subject) (ha : AllowedToken user h call) :
    Obeys (AllowedToken user) (Grounded user) (perform call) h := by
  unfold perform
  rw [obeys_perform]
  refine ⟨ha, ?_⟩
  intro r message hm
  subst hm
  exact Ground.rejection hr

theorem Ground.mark {user : String} {h : List OnboardingEvent} (hg : Ground user h)
    (r : Except Exc Unit) : Ground user (h ++ [⟨.markReauthorizationRequired user, r⟩]) := by
  rcases hg with ⟨c, hc, hs⟩ | ⟨e, he, hr⟩
  · refine .inl ⟨c, by rw [lastRead_snoc]; exact hc, ?_⟩
    exact hs.imp id (fun ⟨message, hm⟩ => ⟨message, List.mem_append_left _ hm⟩)
  · exact .inr ⟨e, List.mem_append_left _ he, hr⟩

/-- Marking needs the ground the caught exception came with. -/
theorem grounded_marking {α : Type} {user : String} {h : List OnboardingEvent} {p : Onboarding α}
    (hp : Obeys (AllowedToken user) (Grounded user) p h) :
    Obeys (AllowedToken user) (Grounded user) (markingReauthorization user p) h := by
  unfold markingReauthorization
  refine hp.tryCatch (fun _ _ hq => hq) ?_
  intro h e hq
  cases e with
  | teslaReauthorizationRequired message =>
    have hg := hq message rfl
    refine ⟨⟨rfl, rfl, hg⟩, ?_⟩
    intro r
    cases r <;> exact fun _ _ => hg.mark _
  | _ =>
    intro m hm
    cases hm

theorem obeys_refreshTokens {user : String} {h : List OnboardingEvent} {c : TeslaConnection}
    (hc : lastRead user h = some c) :
    Obeys (AllowedToken user) (fun h' r => Grounded user h' r ∧ ∀ t, r = .ok t →
        lastRead user h' = some c ∧
        (⟨.refresh c.tokens.refreshToken c.tokens.teslaSubject, .ok t⟩ : OnboardingEvent) ∈ h')
      (refreshTokens user c) h := by
  refine ⟨⟨rfl, trivial⟩, ?_⟩
  intro r
  have hread : lastRead user
      (h ++ [⟨.refresh c.tokens.refreshToken c.tokens.teslaSubject, r⟩]) = some c := by
    rw [lastRead_snoc]
    exact hc
  cases r with
  | ok t =>
    refine ⟨by rintro m ⟨⟩, ?_⟩
    intro t' ht
    obtain rfl := Except.ok.inj ht
    exact ⟨hread, by simp⟩
  | error e =>
    cases e with
    | teslaReauthorizationRequired message =>
      have hg : Ground user (h ++ [⟨.refresh c.tokens.refreshToken c.tokens.teslaSubject,
          .error (.teslaReauthorizationRequired message)⟩]) :=
        .inl ⟨c, hread, .inr ⟨message, by simp⟩⟩
      refine ⟨⟨rfl, rfl, hg⟩, ?_⟩
      intro r
      cases r <;> exact ⟨fun _ _ => hg.mark _, by rintro t ⟨⟩⟩
    | _ => exact ⟨by rintro m ⟨⟩, by rintro t ⟨⟩⟩

theorem obeys_commitRotation {user : String} {h : List OnboardingEvent} {c : TeslaConnection}
    {t : TokenSet} (hc : lastRead user h = some c)
    (ht : (⟨.refresh c.tokens.refreshToken c.tokens.teslaSubject, .ok t⟩ : OnboardingEvent) ∈ h) :
    Obeys (AllowedToken user) (Grounded user) (commitRotation user c t) h := by
  unfold commitRotation
  refine (grounded_perform (.rotateTokens user c.tokenVersion t) (by simp)
    ⟨rfl, rfl, c, hc, rfl, ht⟩).tryCatch (fun _ _ hq => hq) ?_
  intro h e hq
  cases e with
  | concurrentTokenRotation message =>
    exact grounded_perform (.getConnection user) (by simp) ⟨rfl, trivial⟩
  | _ => exact hq

theorem obeys_currentTime (user : String) (now : Option Int) (h : List OnboardingEvent) :
    Obeys (AllowedToken user) (Grounded user) (currentTime now) h := by
  cases now with
  | some t => rintro m ⟨⟩
  | none => exact grounded_perform .utcNow (by simp) ⟨rfl, trivial⟩

/-- Reading the connection and then refreshing and committing what was read. -/
theorem obeys_rotation {α : Type} {user : String} {h : List OnboardingEvent} {c : TeslaConnection}
    (hc : lastRead user h = some c) (answer : TeslaConnection → α) :
    Obeys (AllowedToken user) (Grounded user) (do
      let rotated ← refreshTokens user c
      let connection ← commitRotation user c rotated
      return answer connection) h := by
  refine (obeys_refreshTokens hc).bind ?_ (fun _ _ hq m hm => hq.1 m (by cases hm; rfl))
  intro h t hq
  obtain ⟨hread, hmem⟩ := hq.2 t rfl
  refine (obeys_commitRotation hread hmem).bind ?_ (fun _ _ hq m hm => hq m (by cases hm; rfl))
  rintro h connection - m ⟨⟩

theorem ground_of_read {user : String} {h : List OnboardingEvent} {c : TeslaConnection}
    (hs : c.status = .reauthorizationRequired) :
    Ground user (h ++ [⟨.getConnection user, .ok c⟩]) :=
  .inl ⟨c, by simp [lastRead_snoc, reads], .inl hs⟩

theorem obeys_accessToken (user : String) (now : Option Int) (force : Bool)
    (h : List OnboardingEvent) :
    Obeys (AllowedToken user) (Grounded user) (accessToken user now force) h := by
  unfold accessToken
  refine (obeys_currentTime user now h).bind ?_ (fun _ _ hq m hm => hq m (by cases hm; rfl))
  intro h current _
  refine ⟨⟨rfl, trivial⟩, ?_⟩
  intro r
  cases r with
  | error e => exact fun m hm => by cases hm; exact Ground.rejection (by simp)
  | ok c =>
    simp only [Prog.ofExcept_ok, Prog.bind_ret_eq]
    split
    · rename_i hs
      exact fun _ _ => ground_of_read hs
    · split
      · rintro m ⟨⟩
      · exact obeys_rotation (by simp [lastRead_snoc, reads]) _

theorem obeys_rotateRefreshToken (user : String) (h : List OnboardingEvent) :
    Obeys (AllowedToken user) (Grounded user) (rotateRefreshToken user) h := by
  refine ⟨⟨rfl, trivial⟩, ?_⟩
  intro r
  cases r with
  | error e => exact fun m hm => by cases hm; exact Ground.rejection (by simp)
  | ok c =>
    simp only [Prog.ofExcept_ok, Prog.bind_ret_eq]
    split
    · rename_i hs
      exact fun _ _ => ground_of_read hs
    · exact obeys_rotation (by simp [lastRead_snoc, reads]) _

theorem obeys_accessForUser (user : String) (now : Option Int) (force : Bool)
    (h : List OnboardingEvent) :
    Obeys (AllowedToken user) (Grounded user) (accessForUser user force now) h := by
  refine (obeys_accessToken user now force h).bind ?_ (fun _ _ hq m hm => hq m (by cases hm; rfl))
  rintro h ⟨token, connection⟩ - m ⟨⟩

/-- Whatever operation runs with the credentials, its 401 is a ground and so is
the failure of the forced refresh that follows it. -/
theorem obeys_execute {α : Type} {user : String} {operation : String → String → Onboarding α}
    (hop : ∀ token baseUrl h, Obeys (AllowedToken user) (Grounded user) (operation token baseUrl) h)
    (now : Option Int) (h : List OnboardingEvent) :
    Obeys (AllowedToken user) (Grounded user) (execute user operation now) h := by
  refine (obeys_accessForUser user now false h).bind ?_ (fun _ _ hq m hm => hq m (by cases hm; rfl))
  intro h context _
  refine (hop _ _ h).tryCatch (fun _ _ hq => hq) ?_
  intro h e hq
  cases e with
  | teslaReauthorizationRequired message =>
    refine (obeys_accessForUser user now true h).bind ?_ (fun _ _ hq m hm => hq m (by cases hm; rfl))
    intro h refreshed _
    exact hop _ _ h
  | _ => exact hq

theorem obeys_refreshFleetStatus (user vehicleId : String) (now : Option Int)
    (h : List OnboardingEvent) :
    Obeys (AllowedToken user) (Grounded user) (refreshFleetStatus user vehicleId now) h := by
  refine (grounded_perform (.getVehicle user vehicleId) (by simp) ⟨rfl, trivial⟩).bind ?_
    (fun _ _ hq m hm => hq m (by cases hm; rfl))
  intro h vehicle _
  refine (grounded_marking (obeys_execute
    (fun token baseUrl h => grounded_perform (.fleetStatus token baseUrl [vehicle.vin])
      (by simp) ⟨rfl, trivial⟩) now h)).bind ?_ (fun _ _ hq m hm => hq m (by cases hm; rfl))
  intro h statuses _
  split
  · rintro m ⟨⟩
  · exact grounded_perform _ (by simp) ⟨rfl, trivial⟩

/-- The requests that use an existing connection. -/
def Request.usesConnection : Request → Bool
  | .callback .. => false
  | _ => true

theorem obeys_request {user : String} {request : Request} (hr : request.usesConnection = true) :
    Obeys (AllowedToken user) (fun _ _ => True) (requestProgram user request) [] := by
  cases request with
  | callback => cases hr
  | accessToken now force =>
    exact (obeys_accessToken user now force []).bind (fun _ _ _ => trivial) (fun _ _ _ => trivial)
  | rotateRefreshToken =>
    exact (obeys_rotateRefreshToken user []).bind (fun _ _ _ => trivial) (fun _ _ _ => trivial)
  | refreshFleetStatus vehicleId now =>
    exact (obeys_refreshFleetStatus user vehicleId now []).bind (fun _ _ _ => trivial)
      (fun _ _ _ => trivial)

theorem obeys_perform_any {Q : List OnboardingEvent → Except Exc α → Prop} {user : String}
    {h : List OnboardingEvent} {call : Call} {f : call.Ret → Onboarding α}
    (ha : Allowed user h call)
    (hok : ∀ a, Obeys (Allowed user) Q (f a) (h ++ [⟨call, .ok a⟩]))
    (herr : ∀ h e, Q h (.error e)) :
    Obeys (Allowed user) Q (perform call >>= f) h := by
  refine ⟨ha, ?_⟩
  intro r
  cases r with
  | ok a => exact hok a
  | error e => exact herr _ _

/-- A callback stores the token set its own code exchange was answered with. -/
theorem obeys_callback (user audience state code : String) (binding : Option String)
    (now : Option Int) (h : List OnboardingEvent) :
    Obeys (Allowed user) (fun _ _ => True) (callback audience state code binding now) h := by
  have htime := (obeys_currentTime user now h).imp (fun _ _ ha => ha.2)
  refine htime.bind ?_ (fun _ _ _ => trivial)
  intro h current _
  refine obeys_perform_any trivial ?_ (fun _ _ => trivial)
  intro pending
  cases requireBrowserSessionBinding pending binding with
  | error e => trivial
  | ok _ =>
    refine obeys_perform_any trivial ?_ (fun _ _ => trivial)
    intro tokens
    refine obeys_perform_any ⟨_, List.mem_append_right _ (List.mem_singleton.mpr rfl), rfl⟩ ?_
      (fun _ _ => trivial)
    intro connection
    refine obeys_perform_any trivial ?_ (fun _ _ => trivial)
    intro region
    refine obeys_perform_any trivial ?_ (fun _ _ => trivial)
    intro vehicles
    refine obeys_perform_any trivial ?_ (fun _ _ => trivial)
    intro statuses
    refine obeys_perform_any trivial ?_ (fun _ _ => trivial)
    intro records
    refine Obeys.bind (Q := fun _ _ => True) ?_ (fun _ _ _ => trivial) (fun _ _ _ => trivial)
    refine obeys_perform_any trivial ?_ (fun _ _ => trivial)
    intro _
    exact ⟨trivial, fun r => by cases r <;> trivial⟩

theorem allowed_request (user : String) (request : Request) :
    Obeys (Allowed user) (fun _ _ => True) (requestProgram user request) [] := by
  cases hu : request.usesConnection with
  | true => exact (obeys_request hu).imp (fun _ _ ha => ha.2)
  | false =>
    cases request with
    | callback audience state code binding now =>
      exact (obeys_callback user audience state code binding now []).bind
        (fun _ _ _ => trivial) (fun _ _ _ => trivial)
    | _ => cases hu

end Woodhouse.Gateway
