import Woodhouse.Browser.Steps

namespace Woodhouse.Browser
open Effects Identity

/-- The texts that a caller sends with a request. -/
def Request.texts : Request → List String
  | .complete state _ browserBindingToken _ | .cancel state browserBindingToken _ =>
    [state,browserBindingToken]
  | .authenticateSession token _ | .logout token => [token]
  | _ => []

section Occurring
variable {ι : Type}

/-- The texts that are hashed in a run: sent by callers, or drawn as random tokens. -/
def Occurs (requests : ι → Request) (log : BrowserLog ι) (text : String) : Prop :=
  (∃ i, text ∈ (requests i).texts) ∨ ∃ i bytes, (i,⟨.tokenUrlsafe bytes,.ok text⟩) ∈ log

/-- The document ids hashed in a run do not collide. -/
def CollisionFree (sha256Hex : String → String) (requests : ι → Request) (log : BrowserLog ι) :
    Prop :=
  ∀ text text', Occurs requests log text → Occurs requests log text' →
    sha256Hex text = sha256Hex text' → text = text'

theorem CollisionFree.earlier {sha256Hex : String → String} {requests : ι → Request}
    {pre log : BrowserLog ι} (free : CollisionFree sha256Hex requests log) (hp : pre <+: log) :
    CollisionFree sha256Hex requests pre := by
  intro text text' h h' hsame
  refine free text text' ?_ ?_ hsame
  · exact h.imp_right (fun ⟨i, bytes, hm⟩ => ⟨i, bytes, hp.subset hm⟩)
  · exact h'.imp_right (fun ⟨i, bytes, hm⟩ => ⟨i, bytes, hp.subset hm⟩)

end Occurring

section Runs
variable {ι : Type} [DecidableEq ι] {sha256Hex casefold : String → String} {config : BrowserConfig}
  {requests : ι → Request} {log : BrowserLog ι} {ps : ι → Browsing Reply} {w : World}

variable (sha256Hex casefold config requests) in
/-- The requests ran interleaved from empty collections. -/
abbrev Reached (log : BrowserLog ι) (ps : ι → Browsing Reply) (w : World) : Prop :=
  Run (browserMachine sha256Hex casefold) (fun i => (requests i).program sha256Hex config) emptyWorld
    log ps w

theorem calls_at {i : ι} {pre post : BrowserLog ι} {call : Call} {r : Except Exc call.Ret}
    (run : Reached sha256Hex casefold config requests (pre ++ (i,⟨call,r⟩) :: post) ps w) :
    RequestCalls sha256Hex config (requests i) (localEvents i pre) call := by
  obtain ⟨qs, t, c, k, t', before, turn, _, _⟩ := run.at_event
  exact before.allowed (request_calls (requests i)) turn

theorem Drew.occurs {i : ι} {text : String} (hd : Drew (localEvents i log) text) :
    Occurs requests log text := by
  obtain ⟨bytes, hm⟩ := hd
  exact .inr ⟨i, bytes, mem_local.mp hm⟩

theorem Drew.earlier {i : ι} {pre post : BrowserLog ι} {text : String}
    (hd : Drew (localEvents i pre) text) : Drew (localEvents i (pre ++ post)) text := by
  obtain ⟨bytes, hm⟩ := hd
  exact ⟨bytes, by rw [local_append]; exact List.mem_append_left _ hm⟩

theorem drew_by_one (run : Reached sha256Hex casefold config requests log ps w) {i j : ι}
    {text : String} (hi : Drew (localEvents i log) text) (hj : Drew (localEvents j log) text) :
    i = j := by
  obtain ⟨bytes, hm⟩ := hi
  obtain ⟨bytes', hm'⟩ := hj
  exact drawn_by_one run (mem_local.mp hm) (mem_local.mp hm')

/-- Two calls that create a document with one drawn key are one request's. -/
theorem same_creator {pre mid post : BrowserLog ι} {i j : ι} {call call' : Call}
    {r : Except Exc call.Ret} {r' : Except Exc call'.Ret} {text text' : String}
    (run : Reached sha256Hex casefold config requests
      (pre ++ (i,⟨call,r⟩) :: (mid ++ (j,⟨call',r'⟩) :: post)) ps w)
    (free : CollisionFree sha256Hex requests (pre ++ (i,⟨call,r⟩) :: (mid ++ (j,⟨call',r'⟩) :: post)))
    (hi : Drew (localEvents i pre) text)
    (hj : Drew (localEvents j (pre ++ (i,⟨call,r⟩) :: mid)) text')
    (hsame : sha256Hex text = sha256Hex text') :
    i = j := by
  have hi' : Drew (localEvents i (pre ++ (i,⟨call,r⟩) :: (mid ++ (j,⟨call',r'⟩) :: post))) text :=
    hi.earlier
  have hj' : Drew (localEvents j ((pre ++ (i,⟨call,r⟩) :: mid) ++ (j,⟨call',r'⟩) :: post)) text' :=
    hj.earlier
  rw [List.append_assoc, List.cons_append] at hj'
  obtain rfl := free text text' hi'.occurs hj'.occurs hsame
  exact drew_by_one run hi' hj'

theorem login_once {pre mid post : BrowserLog ι} {i j : ι} {state state' : String}
    {login login' : PendingBrowserLogin} {r r' : Except Exc Unit}
    (run : Reached sha256Hex casefold config requests
      (pre ++ (i,⟨.createLogin state login,r⟩) :: (mid ++ (j,⟨.createLogin state' login',r'⟩) :: post))
      ps w)
    (free : CollisionFree sha256Hex requests
      (pre ++ (i,⟨.createLogin state login,r⟩) :: (mid ++ (j,⟨.createLogin state' login',r'⟩) :: post)))
    (hsame : sha256Hex state = sha256Hex state') : False := by
  obtain ⟨_, _, hi, _⟩ := calls_at run
  have run' := run
  rw [← List.cons_append, ← List.append_assoc] at run'
  obtain ⟨hfirst, _, hj, _⟩ := calls_at run'
  obtain rfl := same_creator run free hi hj hsame
  exact hfirst state login r (by simp)

theorem session_once {pre mid post : BrowserLog ι} {i j : ι} {token token' : String}
    {session session' : BrowserSession} {r r' : Except Exc Unit}
    (run : Reached sha256Hex casefold config requests
      (pre ++ (i,⟨.createSession token session,r⟩) ::
        (mid ++ (j,⟨.createSession token' session',r'⟩) :: post)) ps w)
    (free : CollisionFree sha256Hex requests
      (pre ++ (i,⟨.createSession token session,r⟩) ::
        (mid ++ (j,⟨.createSession token' session',r'⟩) :: post)))
    (hsame : sha256Hex token = sha256Hex token') : False := by
  obtain ⟨_, _, _, _, _, _, hi⟩ := calls_at run
  have run' := run
  rw [← List.cons_append, ← List.append_assoc] at run'
  obtain ⟨hfirst, _, _, _, _, _, hj⟩ := calls_at run'
  obtain rfl := same_creator run free hi.drew hj.drew hsame
  exact hfirst token session r (by simp)

/-- A login is handed out once. -/
theorem consumed_once {pre mid post : BrowserLog ι} {i j : ι} {state state' : String}
    {now now' : Int} {login login' : PendingBrowserLogin}
    (run : Reached sha256Hex casefold config requests
      (pre ++ (i,⟨.consumeLogin state now,.ok login⟩) ::
        (mid ++ (j,⟨.consumeLogin state' now',.ok login'⟩) :: post)) ps w)
    (free : CollisionFree sha256Hex requests
      (pre ++ (i,⟨.consumeLogin state now,.ok login⟩) ::
        (mid ++ (j,⟨.consumeLogin state' now',.ok login'⟩) :: post)))
    (hsame : sha256Hex state = sha256Hex state') : False := by
  obtain ⟨qs, t, c, k, t', before, turn, does, after⟩ := run.at_event
  have hs := worldStep does
  cases hs with
  | consumed _ _ _ held unexpired =>
    obtain ⟨j₁, state₁, hm₁, hkey₁⟩ := login_created before rfl held
    obtain ⟨qs', u, c', k', u', between, turn', does', _⟩ := after.at_event
    have hs' := worldStep does'
    cases hs' with
    | consumed _ _ _ held' unexpired' =>
      rw [← hsame] at held'
      have hgone : (Function.update t.logins (sha256Hex state) none) (sha256Hex state) = none :=
        Function.update_self ..
      obtain ⟨j₂, state₂, hm₂, hkey₂⟩ := login_created between hgone held'
      obtain ⟨a₁, b₁, rfl⟩ := List.append_of_mem hm₁
      obtain ⟨a₂, b₂, rfl⟩ := List.append_of_mem hm₂
      have hlog : (a₁ ++ (j₁,⟨.createLogin state₁ login,.ok ()⟩) :: b₁) ++
            (i,⟨.consumeLogin state now,.ok login⟩) ::
              ((a₂ ++ (j₂,⟨.createLogin state₂ login',.ok ()⟩) :: b₂) ++
                (j,⟨.consumeLogin state' now',.ok login'⟩) :: post) =
          a₁ ++ (j₁,⟨.createLogin state₁ login,.ok ()⟩) ::
            ((b₁ ++ (i,⟨.consumeLogin state now,.ok login⟩) :: a₂) ++
              (j₂,⟨.createLogin state₂ login',.ok ()⟩) ::
                (b₂ ++ (j,⟨.consumeLogin state' now',.ok login'⟩) :: post)) := by simp
      rw [hlog] at run free
      exact login_once run free (hkey₁.trans hkey₂.symm)
    | unchanged _ _ hquiet => cases hquiet
  | unchanged _ _ hquiet => cases hquiet

/-- What an authentication that returns has read. -/
structure Read (token : String) (now : Option Int) (h : List BrowserEvent) (context : UserContext)
    (session : BrowserSession) : Prop where
  calls : ∃ before current identity, h = before ++
      [⟨.getSession token,.ok (some session)⟩,⟨.resolveOrBind identity,.ok context⟩] ∧
    GoesBy now before current ∧ current < session.expiresAt ∧
    verifiedIdentity session.issuer session.subject = .ok identity

theorem sessionFromData_ok {data session : BrowserSession}
    (h : sessionFromData data = .ok session) : data = session := by
  unfold sessionFromData at h
  split at h
  · cases h
  · exact Except.ok.inj h

theorem currentTime_goesBy (now : Option Int) :
    Obeys (fun _ _ => True) (fun h r => ∀ current, r = .ok current → GoesBy now h current)
      (currentTime now) [] := by
  cases now with
  | some t =>
    intro current hc
    obtain rfl := Except.ok.inj hc
    exact .inl rfl
  | none =>
    refine ⟨trivial, ?_⟩
    intro r
    cases r with
    | error e =>
      intro current hc
      cases hc
    | ok t =>
      intro current hc
      obtain rfl := Except.ok.inj hc
      exact .inr (List.mem_singleton_self _)

theorem getSession_reads (token : String) (current : Int) (h : List BrowserEvent) :
    Obeys (fun _ _ => True) (fun h' r => ∀ session, r = .ok session →
      h' = h ++ [⟨.getSession token,.ok (some session)⟩] ∧ current < session.expiresAt)
      (getSession token current) h := by
  refine ⟨trivial, ?_⟩
  intro r
  cases r with
  | error e =>
    intro session hs
    cases hs
  | ok snapshot =>
    cases snapshot with
    | none =>
      intro session hs
      cases hs
    | some data =>
      show Obeys _ _ (Prog.ofExcept (sessionFromData data) >>= fun session =>
        if session.expiresAt ≤ current then do
          perform (.deleteSession token)
          throw (.invalidToken "Browser session has expired")
        else return session) _
      cases hd : sessionFromData data with
      | error e =>
        intro session hs
        cases hs
      | ok session =>
        obtain rfl := sessionFromData_ok hd
        simp only [Prog.ofExcept_ok, Prog.ret_bind]
        split
        · refine ⟨trivial, ?_⟩
          intro r
          cases r <;> exact fun session hs => by cases hs
        · intro session hs
          obtain rfl := Except.ok.inj hs
          exact ⟨rfl, by omega⟩

theorem authenticateSession_reads (token : String) (now : Option Int) :
    Obeys (fun _ _ => True) (fun h r => ∀ context session, r = .ok (context,session) →
      Read token now h context session) (authenticateSession token now) [] := by
  refine (currentTime_goesBy now).bind ?_ (fun h e _ context session hr => by cases hr)
  intro before current htime
  refine (getSession_reads token current before).bind ?_
    (fun h e _ context session hr => by cases hr)
  intro h session hread
  obtain ⟨rfl, hlive⟩ := hread session rfl
  cases hv : verifiedIdentity session.issuer session.subject with
  | error e =>
    intro context session' hr
    cases hr
  | ok identity =>
    refine ⟨trivial, ?_⟩
    intro r
    cases r with
    | error e =>
      intro context session' hr
      cases hr
    | ok context =>
      intro context' session' hr
      obtain ⟨rfl, rfl⟩ := Prod.mk.inj (Except.ok.inj hr)
      exact ⟨before, current, identity, by simp, htime current rfl, hlive, hv⟩

end Runs

end Woodhouse.Browser
