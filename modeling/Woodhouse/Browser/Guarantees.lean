import Woodhouse.Browser.Sessions

namespace Woodhouse.Browser
open Effects Identity

/-- The login state a request presents. -/
def Request.state : Request → Option String
  | .complete state _ _ _ | .cancel state _ _ => some state
  | _ => none

section Guarantees
variable {ι : Type} [DecidableEq ι] (sha256Hex casefold : String → String) (config : BrowserConfig)
  (requests : ι → Request)

/-- A session that was created, and whose token no logout deleted afterwards. -/
structure Live (token : String) (session : BrowserSession) (pre : BrowserLog ι) : Prop where
  created : ∃ j, (j,⟨.createSession token session,.ok ()⟩) ∈ pre
  kept : ∀ a b j, pre = a ++ (j,⟨.deleteSession token,.ok ()⟩) :: b →
    ∀ k session', (k,⟨.createSession token session',.ok ()⟩) ∉ a

/-- The user whom the request's token exchange named is active when it is resolved. -/
def ResolvedIn (pre : BrowserLog ι) (i : ι) (identity : VerifiedIdentity) (context : UserContext) :
    Prop :=
  ∃ a b qs t, pre = a ++ (i,⟨.resolveOrBind identity,.ok context⟩) :: b ∧
    Reached sha256Hex casefold config requests (a ++ [(i,⟨.resolveOrBind identity,.ok context⟩)]) qs t ∧
    Speaks sha256Hex casefold t.directory identity.issuer identity.subject context

/-- Browser sessions speak only for the identity that logged in. -/
structure SessionGuarantees (log : BrowserLog ι) (ps : ι → Browsing Reply) : Prop where
  /-- A login state leads to one code exchange. -/
  once : ∀ pre mid post i j code verifier r code' verifier' r',
    log = pre ++ (i,⟨.exchangeCode code verifier,r⟩) ::
      (mid ++ (j,⟨.exchangeCode code' verifier',r'⟩) :: post) →
    (requests i).state ≠ (requests j).state
  /-- It is made before the expiry of the login, for the browser the login was started in. -/
  exchanged : ∀ pre post i code verifier r,
    log = pre ++ (i,⟨.exchangeCode code verifier,r⟩) :: post →
    ∃ state browserBindingToken now login current j,
      requests i = .complete state code browserBindingToken now ∧
      (j,⟨.createLogin state login,.ok ()⟩) ∈ pre ∧ (∃ now, requests j = .start now) ∧
      (i,⟨.consumeLogin state current,.ok login⟩) ∈ pre ∧
      GoesBy now (localEvents i pre) current ∧ current < login.expiresAt ∧
      verifier = login.codeVerifier ∧ browserBindingToken ≠ "" ∧
      Drew (localEvents j pre) browserBindingToken ∧
      login.browserBindingHash = sha256Hex browserBindingToken
  /-- A session is created for the identity of both tokens, when its user is active. -/
  opened : ∀ pre post i token session r,
    log = pre ++ (i,⟨.createSession token session,r⟩) :: post →
    ∃ state code browserBindingToken now login identity context,
      requests i = .complete state code browserBindingToken now ∧
      Redeemed sha256Hex state browserBindingToken now (localEvents i pre) login ∧
      Verified config code (localEvents i pre) login identity ∧
      session.issuer = identity.issuer ∧ session.subject = identity.subject ∧
      ResolvedIn sha256Hex casefold config requests pre i identity context
  /-- A context comes from a live session, for the active user its identity is bound to. -/
  authenticated : ∀ i token now context session,
    requests i = .authenticateSession token now → ps i = .ret (.authenticated context session) →
    ∃ pre mid post identity current,
      log = pre ++ (i,⟨.getSession token,.ok (some session)⟩) ::
        (mid ++ (i,⟨.resolveOrBind identity,.ok context⟩) :: post) ∧
      Live token session pre ∧ GoesBy now (localEvents i pre) current ∧
      current < session.expiresAt ∧
      ∃ qs t, Reached sha256Hex casefold config requests
          (pre ++ (i,⟨.getSession token,.ok (some session)⟩) :: mid) qs t ∧
        Speaks sha256Hex casefold t.directory session.issuer session.subject context

variable {sha256Hex casefold config requests} {log : BrowserLog ι} {ps : ι → Browsing Reply}
  {w : World}

theorem empty_mirrored : Mirrored sha256Hex casefold emptyWorld.directory := mirrored_empty

/-- A login that is handed out was created by a start, with a binding token of its own. -/
theorem consumed_login {i : ι} {pre : BrowserLog ι} {post : BrowserLog ι} {state : String}
    {current : Int} {login : PendingBrowserLogin}
    (run : Reached sha256Hex casefold config requests
      (pre ++ (i,⟨.consumeLogin state current,.ok login⟩) :: post) ps w)
    (free : CollisionFree sha256Hex requests
      (pre ++ (i,⟨.consumeLogin state current,.ok login⟩) :: post))
    (hpresented : state ∈ (requests i).texts) :
    current < login.expiresAt ∧
    ∃ j, (j,⟨.createLogin state login,.ok ()⟩) ∈ pre ∧ (∃ now, requests j = .start now) ∧
      ∃ browserBindingToken, Drew (localEvents j pre) browserBindingToken ∧
        login.browserBindingHash = sha256Hex browserBindingToken := by
  obtain ⟨qs, t, c, k, t', before, turn, does, after⟩ := run.at_event
  have hs := worldStep does
  cases hs with
  | unchanged _ _ hquiet => cases hquiet
  | consumed _ _ _ held unexpired =>
    refine ⟨unexpired, ?_⟩
    obtain ⟨j, state', hm, hkey⟩ := login_created before rfl held
    obtain ⟨a, b, rfl⟩ := List.append_of_mem hm
    have run' := run
    simp only [List.append_assoc, List.cons_append] at run'
    obtain ⟨_, hstart, hstate, binding, hbinding, hhash⟩ := calls_at run'
    have hstate' : Drew (localEvents j (a ++ (j,⟨.createLogin state' login,.ok ()⟩) :: b)) state' :=
      hstate.earlier
    obtain rfl := (free.earlier (List.prefix_append _ _)) state' state hstate'.occurs
      (.inl ⟨i, hpresented⟩) hkey
    exact ⟨j, hm, hstart, binding, hbinding.earlier, hhash⟩

theorem exchanged_before {i : ι} {pre post : BrowserLog ι} {code verifier : String}
    {r : Except Exc TokenResponse}
    (run : Reached sha256Hex casefold config requests
      (pre ++ (i,⟨.exchangeCode code verifier,r⟩) :: post) ps w)
    (free : CollisionFree sha256Hex requests (pre ++ (i,⟨.exchangeCode code verifier,r⟩) :: post)) :
    ∃ state browserBindingToken now login current j,
      requests i = .complete state code browserBindingToken now ∧
      (j,⟨.createLogin state login,.ok ()⟩) ∈ pre ∧ (∃ now, requests j = .start now) ∧
      (i,⟨.consumeLogin state current,.ok login⟩) ∈ pre ∧
      GoesBy now (localEvents i pre) current ∧ current < login.expiresAt ∧
      verifier = login.codeVerifier ∧ browserBindingToken ≠ "" ∧
      Drew (localEvents j pre) browserBindingToken ∧
      login.browserBindingHash = sha256Hex browserBindingToken := by
  obtain ⟨_, state, token, now, login, hrequest, hredeemed, rfl⟩ := calls_at run
  obtain ⟨⟨current, htime, hm⟩, hpresented, hbound⟩ := hredeemed
  have hm := mem_local.mp hm
  obtain ⟨a, b, rfl⟩ := List.append_of_mem hm
  have run' := run
  have free' := free
  simp only [List.append_assoc, List.cons_append] at run' free'
  obtain ⟨hlive, j, hcreated, hstart, binding, hbinding, hhash⟩ :=
    consumed_login run' free' (by simp [hrequest, Request.texts])
  have hbinding' : Drew (localEvents j (a ++ (i,⟨.consumeLogin state current,.ok login⟩) :: b)) binding :=
    hbinding.earlier
  obtain rfl := (free.earlier (List.prefix_append _ _)) binding token hbinding'.occurs
    (.inl ⟨i, by simp [hrequest, Request.texts]⟩) (hhash.symm.trans hbound)
  exact ⟨state, binding, now, login, current, j, hrequest, List.mem_append_left _ hcreated, hstart, hm,
    htime, hlive, rfl, hpresented, hbinding', hhash⟩

theorem exchanged_once {i j : ι} {pre mid post : BrowserLog ι} {code verifier code' verifier' : String}
    {r r' : Except Exc TokenResponse}
    (run : Reached sha256Hex casefold config requests
      (pre ++ (i,⟨.exchangeCode code verifier,r⟩) ::
        (mid ++ (j,⟨.exchangeCode code' verifier',r'⟩) :: post)) ps w)
    (free : CollisionFree sha256Hex requests
      (pre ++ (i,⟨.exchangeCode code verifier,r⟩) ::
        (mid ++ (j,⟨.exchangeCode code' verifier',r'⟩) :: post))) :
    (requests i).state ≠ (requests j).state := by
  intro hsame
  obtain ⟨_, state, _, _, login, hrequest, hredeemed, _⟩ := calls_at run
  have run' := run
  rw [← List.cons_append, ← List.append_assoc] at run'
  obtain ⟨hfirst, state', _, _, login', hrequest', hredeemed', _⟩ := calls_at run'
  rw [hrequest, hrequest'] at hsame
  obtain rfl : state = state' := Option.some.inj hsame
  obtain ⟨current, _, hm⟩ := hredeemed.consumed
  obtain ⟨current', _, hm'⟩ := hredeemed'.consumed
  have hmem := mem_local.mp hm
  have hmem' := mem_local.mp hm'
  have hij : i ≠ j := by
    intro hij
    subst hij
    exact hfirst code verifier r (by simp)
  have hlog : (i,⟨.consumeLogin state current,.ok login⟩) ∈ pre ++ (i,⟨.exchangeCode code verifier,r⟩) ::
      (mid ++ (j,⟨.exchangeCode code' verifier',r'⟩) :: post) := List.mem_append_left _ hmem
  have hlog' : (j,⟨.consumeLogin state current',.ok login'⟩) ∈ pre ++
      (i,⟨.exchangeCode code verifier,r⟩) :: (mid ++ (j,⟨.exchangeCode code' verifier',r'⟩) :: post) := by
    rw [← List.cons_append, ← List.append_assoc]
    exact List.mem_append_left _ hmem'
  -- two requests used the same login up
  have hne : (i,(⟨.consumeLogin state current,.ok login⟩ : BrowserEvent)) ≠
      (j,⟨.consumeLogin state current',.ok login'⟩) := fun he => hij (congrArg Prod.fst he)
  rcases ordered_of_mem hlog hlog' hne with ⟨a, b, c, he⟩ | ⟨a, b, c, he⟩
  · rw [he] at run free
    exact consumed_once run free rfl
  · rw [he] at run free
    exact consumed_once run free rfl

/-- The user of a resolution is active right after it. -/
theorem resolved_in {i : ι} {pre post : BrowserLog ι} {identity : VerifiedIdentity}
    {context : UserContext} (run : Reached sha256Hex casefold config requests (pre ++ post) ps w)
    (hm : (⟨.resolveOrBind identity,.ok context⟩ : BrowserEvent) ∈ localEvents i pre) :
    ResolvedIn sha256Hex casefold config requests pre i identity context := by
  obtain ⟨a, b, rfl⟩ := List.append_of_mem (mem_local.mp hm)
  simp only [List.append_assoc, List.cons_append] at run
  obtain ⟨qs, t, c, k, t', before, turn, does, _⟩ := run.at_event
  have hs := worldStep does
  refine ⟨a, b, _, t', rfl, before.trans (Run.single turn does), ?_⟩
  cases hs with
  | resolved _ _ directory commit =>
    exact (resolveOrBind_ok (directory_mirrored before empty_mirrored) commit).2
  | unchanged _ _ hquiet => cases hquiet

/-- Without a verified email only an existing binding resolves. -/
theorem resolved_bound {identity : VerifiedIdentity} {issuer subject : String} {d d' : Directory}
    {context : UserContext} (hv : verifiedIdentity issuer subject = .ok identity)
    (hr : d.resolveOrBind sha256Hex casefold identity = .ok (context,d')) :
    Speaks sha256Hex casefold d issuer subject context := by
  have hemail : identity.emailVerified = false := by
    unfold verifiedIdentity at hv
    split at hv
    · obtain rfl := Except.ok.inj hv
      rfl
    · cases hv
  obtain ⟨rfl, rfl⟩ := verifiedIdentity_eq hv
  unfold Directory.resolveOrBind at hr
  split at hr
  · rename_i binding hb
    cases hc : d.resolveBound casefold identity binding with
    | error e =>
      rw [hc] at hr
      cases hr
    | ok c =>
      rw [hc] at hr
      obtain ⟨rfl, rfl⟩ := Prod.mk.inj (Except.ok.inj hr)
      exact resolveBound_speaks hb hc
  · unfold Directory.bindFirst firstLoginInvitationEmail at hr
    rw [hemail] at hr
    cases hr

theorem read_live {i : ι} {pre post : BrowserLog ι} {token : String} {session : BrowserSession}
    (run : Reached sha256Hex casefold config requests
      (pre ++ (i,⟨.getSession token,.ok (some session)⟩) :: post) ps w)
    (free : CollisionFree sha256Hex requests
      (pre ++ (i,⟨.getSession token,.ok (some session)⟩) :: post))
    (hpresented : token ∈ (requests i).texts) : Live token session pre := by
  obtain ⟨qs, t, c, k, t', before, turn, does, _⟩ := run.at_event
  have hheld : t.sessions (sha256Hex token) = some session := by
    have hs := worldStep does
    generalize hr : (Except.ok (some session) : Except Exc (Option BrowserSession)) = r at hs
    cases hs with
    | sessionRead _ => exact (Except.ok.inj hr).symm
    | unchanged _ _ hquiet =>
      subst hr
      cases hquiet
  have free' := free.earlier (List.prefix_append _ _)
  obtain ⟨a₀, b₀, j, token', rfl, hkey, hdeleted⟩ := session_created before rfl hheld
  have run' := before
  obtain ⟨_, _, _, _, _, _, hopened⟩ := calls_at before
  have hdrew : Drew (localEvents j (a₀ ++ (j,⟨.createSession token' session,.ok ()⟩) :: b₀)) token' :=
    hopened.drew.earlier
  obtain rfl := free' token' token hdrew.occurs (.inl ⟨i, hpresented⟩) hkey
  refine ⟨⟨j, by simp⟩, ?_⟩
  intro a b j' hsplit k' session' hcreated
  obtain ⟨a₁, a₂, rfl⟩ := List.append_of_mem hcreated
  rcases List.append_eq_append_iff.mp hsplit with ⟨m, hm, htail⟩ | ⟨m, hm, htail⟩
  · -- the deletion comes after the creation
    cases m with
    | nil =>
      simp only [List.nil_append, List.cons.injEq] at htail
      cases htail.1
    | cons x m =>
      simp only [List.cons_append, List.cons.injEq] at htail
      exact hdeleted j' token' (by rw [htail.2]; simp) rfl
  · -- the deletion comes before it, so an earlier creation would be a second one
    cases m with
    | nil =>
      simp only [List.nil_append, List.cons.injEq] at htail
      cases htail.1
    | cons x m =>
      simp only [List.cons_append, List.cons.injEq] at htail
      obtain ⟨rfl, rfl⟩ := htail
      rw [hm] at run' free'
      have hlog : (a₁ ++ (k',⟨.createSession token' session',.ok ()⟩) :: a₂ ++
            (j',⟨.deleteSession token',.ok ()⟩) :: m) ++
              (j,⟨.createSession token' session,.ok ()⟩) :: b₀ =
          a₁ ++ (k',⟨.createSession token' session',.ok ()⟩) ::
            ((a₂ ++ (j',⟨.deleteSession token',.ok ()⟩) :: m) ++
              (j,⟨.createSession token' session,.ok ()⟩) :: b₀) := by simp
      rw [hlog] at run' free'
      exact session_once run' free' rfl

theorem authenticated_read {i : ι} {token : String} {now : Option Int} {context : UserContext}
    {session : BrowserSession} (run : Reached sha256Hex casefold config requests log ps w)
    (hrequest : requests i = .authenticateSession token now)
    (done : ps i = .ret (.authenticated context session)) :
    Read token now (localEvents i log) context session := by
  have hobeys : Obeys (fun _ _ => True)
      (fun h r => ∀ context session, r = .ok (Reply.authenticated context session) →
        Read token now h context session)
      ((requests i).program sha256Hex config) [] := by
    rw [hrequest]
    refine (authenticateSession_reads token now).bind ?_ (fun h e _ context session hr => by cases hr)
    intro h answer hread context session hr
    obtain ⟨rfl, rfl⟩ := Reply.authenticated.inj (Except.ok.inj hr)
    exact hread answer.1 answer.2 rfl
  exact run.outcome hobeys done context session rfl

theorem sessions_speak_for_login (run : Reached sha256Hex casefold config requests log ps w)
    (free : CollisionFree sha256Hex requests log) :
    SessionGuarantees sha256Hex casefold config requests log ps := by
  constructor
  case once =>
    rintro pre mid post i j code verifier r code' verifier' r' rfl
    exact exchanged_once run free
  case exchanged =>
    rintro pre post i code verifier r rfl
    exact exchanged_before run free
  case opened =>
    rintro pre post i token session r rfl
    obtain ⟨_, state, code, binding, now, hrequest, hopened⟩ := calls_at run
    obtain ⟨login, identity, context, hredeemed, hverified, hm, hissuer, hsubject⟩ := hopened.login
    exact ⟨state, code, binding, now, login, identity, context, hrequest, hredeemed, hverified,
      hissuer, hsubject, resolved_in run hm⟩
  case authenticated =>
    intro i token now context session hrequest done
    obtain ⟨before, current, identity, hlocal, htime, hlive, hv⟩ :=
      (authenticated_read run hrequest done).calls
    obtain ⟨pre, rest, rfl, rfl, hrest⟩ := local_split hlocal
    obtain ⟨mid, post, rfl, hmid, _⟩ := local_split_head hrest
    refine ⟨pre, mid, post, identity, current, rfl, read_live run free ?_, htime, hlive, ?_⟩
    · simp [hrequest, Request.texts]
    · rw [← List.cons_append, ← List.append_assoc] at run
      obtain ⟨qs, t, c, k, t', hbefore, turn, does, _⟩ := run.at_event
      refine ⟨qs, t, hbefore, ?_⟩
      have hs := worldStep does
      cases hs with
      | resolved _ _ directory commit => exact resolved_bound hv commit
      | unchanged _ _ hquiet => cases hquiet

end Guarantees

section Witness

def demoConfig : BrowserConfig :=
  { accessIssuer := "https://id.example.org/", accessAudience := "https://mcp.example.org",
    requiredScopes := ["mcp:access"], idIssuer := "https://id.example.org/", idAudience := "client",
    authorizationUrl := fun state _ _ => "https://id.example.org/authorize?state=" ++ state }

/-- The digests of the random tokens of the run. -/
def demoDigests : List (String × String) :=
  [("state-1","f36b45ae818809ee24ae2489edabfe3cf2a12627b6929c07fc7a3b885d414d44"),
   ("nonce-1","9e3f156324d42f0ea4b6f4fce81d56fbd64a2143a3fdd60a130d9c90e5b4d688"),
   ("verifier-1","c5361104b4c3b75812dfeaf0ff714155a7d9d22360f5b65805b1bc7d13ef904b"),
   ("binding-1","2557a7f63fd2aa33f7880e8f787f08959054a9fde0c5fd14341dedca6aff58d9"),
   ("session-1","84097828fc31a8c8d29210df48901a85de7fd013f686b17be77d1be29cb7a98b"),
   ("csrf-1","3f6f36ef4d060436a9ebe8029c2ae4566c983c31afadb2ca5f6a25d0b56d43a1")]

def demoDigest (text : String) : String :=
  if text = "https://id.example.org/\x00auth0|ann" then
    "569c49708e4a583837ea973f61aec1b28383de64ce0088f6a21adc633f3dd66d"
  else ((demoDigests.find? (fun entry => entry.1 = text)).map Prod.snd).getD ""

inductive DemoRequest where
  | invite
  | activate
  | login
  | completion
  | use
  deriving DecidableEq

def demoRequests : DemoRequest → Request
  | .invite => .administer (.ensureInvitation "ann@example.org" "usr_1" "tesla_u_1")
  | .activate => .administer (.activate "ann@example.org")
  | .login => .start none
  | .completion => .complete "state-1" "code-1" "binding-1" none
  | .use => .authenticateSession "session-1" none

def accessClaims : Claims
  | "iss" => .str "https://id.example.org/"
  | "sub" => .str "auth0|ann"
  | "scope" => .str "openid mcp:access"
  | _ => .absent

def idClaims : Claims
  | "iss" => .str "https://id.example.org/"
  | "sub" => .str "auth0|ann"
  | "nonce" => .str "nonce-1"
  | "email" => .str "ann@example.org"
  | "email_verified" => .bool true
  | _ => .absent

def demoSchedule : List (DemoRequest × Choice) :=
  [(.invite,.success),(.activate,.success),
   (.login,.clock 0),(.login,.token "state-1"),(.login,.token "nonce-1"),
   (.login,.token "verifier-1"),(.login,.token "binding-1"),(.login,.success),
   (.completion,.clock 1000000),(.completion,.success),
   (.completion,.tokens { accessToken := some "access-1", idToken := some "id-1" }),
   (.completion,.claims accessClaims),(.completion,.claims idClaims),(.completion,.success),
   (.completion,.token "session-1"),(.completion,.token "csrf-1"),(.completion,.success),
   (.use,.clock 2000000),(.use,.success),(.use,.success)]

/-- The random tokens of a log are the ones with a digest. -/
def drawsKnown (log : BrowserLog DemoRequest) : Bool :=
  log.all (fun entry =>
    match entry.2 with
    | ⟨.tokenUrlsafe _,.ok text⟩ => decide (text ∈ demoDigests.map Prod.fst)
    | _ => true)

def repliesForAnn : Browsing Reply → Bool
  | .ret (.authenticated context _) => context.userId = "usr_1"
  | _ => false

theorem demo_free {log : BrowserLog DemoRequest} (hd : drawsKnown log = true) :
    CollisionFree demoDigest demoRequests log := by
  have hknown : ∀ text, Occurs demoRequests log text → text ∈ demoDigests.map Prod.fst := by
    rintro text (⟨i, hm⟩ | ⟨i, bytes, hm⟩)
    · cases i
      · cases hm
      · cases hm
      · cases hm
      · simp only [demoRequests, Request.texts, List.mem_cons, List.not_mem_nil, or_false] at hm
        rcases hm with rfl | rfl
        · decide
        · decide
      · obtain rfl := List.mem_singleton.mp hm
        decide
    · exact of_decide_eq_true (List.all_eq_true.mp hd _ hm)
  have hinjective : ∀ text ∈ demoDigests.map Prod.fst, ∀ text' ∈ demoDigests.map Prod.fst,
      demoDigest text = demoDigest text' → text = text' := by decide
  intro text text' h h' hsame
  exact hinjective text (hknown text h) text' (hknown text' h') hsame

set_option maxRecDepth 100000 in
theorem sessions_speak_for_login_ann :
    ∃ log ps w, Reached demoDigest id demoConfig demoRequests log ps w ∧
      repliesForAnn (ps .use) = true ∧
      SessionGuarantees demoDigest id demoConfig demoRequests log ps := by
  obtain ⟨log, ps, w, run, hp⟩ := run_of_schedule (browserMachine demoDigest id)
    (fun i => (demoRequests i).program demoDigest demoConfig) emptyWorld demoSchedule
    (fun out => drawsKnown out.1 && repliesForAnn (out.2.1 .use)) (by decide)
  obtain ⟨hdraws, hreply⟩ := Bool.and_eq_true_iff.mp hp
  exact ⟨log, ps, w, run, hreply, sessions_speak_for_login run (demo_free hdraws)⟩

end Witness

end Woodhouse.Browser
