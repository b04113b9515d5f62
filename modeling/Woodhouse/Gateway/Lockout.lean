import Woodhouse.Gateway.TokenVersions

namespace Woodhouse.Gateway
open Effects

variable {ι : Type} {sha256Hex : String → String} {user : String}

/-- The token endpoint exchanges an unspent refresh token once, refuses exactly
spent ones, and no other endpoint answers 401. -/
def honoursGrant (w : World) : (call : Call) → Choice → Bool
  | .refresh refreshToken _, .tokens _ => refreshToken ∉ w.spent
  | .refresh refreshToken _, .honouredThenLost _ => refreshToken ∉ w.spent
  | .refresh refreshToken _, .failure e => !e.isReauthorization || refreshToken ∈ w.spent
  | _, .failure e => !e.isReauthorization
  | _, _ => true

def grantMachine (sha256Hex : String → String) : Machine Call Call.Ret Exc World Choice :=
  (onboardingMachine sha256Hex).restrict honoursGrant

/-- Spent tokens stay spent, every answer's spent token is recorded, and only a
refresh is ever refused. -/
theorem spent_step {w w' : World} {call : Call} {choice : Choice} {r : Except Exc call.Ret}
    (does : grantMachine sha256Hex w call choice = some (r,w')) :
    (∀ token ∈ w.spent, token ∈ w'.spent) ∧
    (∀ token, spends ⟨call,r⟩ = some token → token ∈ w'.spent) ∧
    rejected ⟨call,r⟩ = false := by
  obtain ⟨hc,does⟩ := Machine.restrict_eq does
  cases answered does with
  | failed _ e =>
    refine ⟨fun _ h => h,?_,?_⟩
    · intro token hs
      cases call with
      | refresh refreshToken subject =>
        cases e with
        | teslaReauthorizationRequired message =>
          obtain rfl := Option.some.inj hs
          simpa [honoursGrant,Exc.isReauthorization] using hc
        | _ => cases hs
      | _ => cases hs
    · cases call <;> first | rfl | simpa [honoursGrant,rejected] using hc
  | refreshed refreshToken _ t =>
    refine ⟨fun _ h => List.mem_cons_of_mem _ h,?_,rfl⟩
    intro token hs
    obtain rfl := Option.some.inj hs
    exact List.mem_cons_self
  | lost refreshToken _ e kind =>
    refine ⟨fun _ h => List.mem_cons_of_mem _ h,?_,rfl⟩
    intro token hs
    cases e with
    | teslaReauthorizationRequired => cases kind
    | _ => cases hs
  | exchanged =>
    refine ⟨fun _ h => h,?_,rfl⟩
    intro token hs
    cases hs
  | stored _ _ _ _ noSpend accepted =>
    refine ⟨fun _ h => h,?_,accepted⟩
    intro token hs
    rw [noSpend] at hs
    cases hs

/-- The token set a committed `rotate_tokens` stored. -/
def rotatesTo (user : String) : OnboardingEvent → Option TokenSet
  | ⟨.rotateTokens owner _ tokens,.ok _⟩ => if owner = user then some tokens else none
  | _ => none

theorem rotatesTo_writes {e : OnboardingEvent} {t : TokenSet} (h : rotatesTo user e = some t) :
    writes user e = some t := by
  unfold rotatesTo at h
  split at h
  · exact h
  · cases h

def connectionStatus (user : String) (w : World) : Option ConnectionStatus :=
  (w.db.connections user).map ConnectionDocument.status

/-- While a committed rotated refresh token is unspent, the connection asks nobody
to authorize again. -/
def NotLockedOut (user : String) (log : GatewayLog ι) (w : World) : Prop :=
  ∀ entry ∈ log, ∀ t, rotatesTo user entry.2 = some t → t.refreshToken ∉ w.spent →
    connectionStatus user w ≠ some .reauthorizationRequired

/-- A token set some request committed and nobody has spent. -/
def Live (user : String) (log : GatewayLog ι) (w : World) (t : TokenSet) : Prop :=
  (∃ entry ∈ log, writes user entry.2 = some t) ∧ t.refreshToken ∉ w.spent

theorem Live.of_snoc {log : GatewayLog ι} {w w' : World} {i : ι} {e : OnboardingEvent}
    {t : TokenSet} (hw : writes user e = none) (hs : ∀ token ∈ w.spent, token ∈ w'.spent)
    (h : Live user (log ++ [(i,e)]) w' t) : Live user log w t := by
  obtain ⟨⟨entry,hm,ht⟩,hn⟩ := h
  refine ⟨⟨entry,?_,ht⟩,fun h => hn (hs _ h)⟩
  rcases List.mem_append.mp hm with hm | hm
  · exact hm
  · rw [List.mem_singleton.mp hm,hw] at ht
    cases ht

variable [DecidableEq ι]

/-- No token write commits between a request's last connection read and its
`mark_reauthorization_required` update. -/
def MarksWhatItRead (user : String) (log : GatewayLog ι) : Prop :=
  ∀ pre i c between post, log = pre ++ (i,⟨.getConnection user,.ok c⟩) ::
      (between ++ (i,⟨.markReauthorizationRequired user,.ok ()⟩) :: post) →
    (∀ e ∈ localEvents i between, reads user e = none) →
    ∀ entry ∈ between, writes user entry.2 = none

theorem MarksWhatItRead.before {log rest : GatewayLog ι} (h : MarksWhatItRead user (log ++ rest)) :
    MarksWhatItRead user log := by
  intro pre i c between post hlog
  exact h pre i c between (post ++ rest) (by rw [hlog]; simp)

theorem lastRead_other {log : GatewayLog ι} {i : ι} {e : OnboardingEvent}
    (hr : reads user e = none) (j : ι) :
    lastRead user (localEvents j (log ++ [(i,e)])) = lastRead user (localEvents j log) := by
  rw [local_append]
  by_cases hj : i = j
  · subst hj
    rw [local_cons_self,local_nil,lastRead_snoc,hr]
    rfl
  · rw [local_cons_other j i e [] hj,local_nil,List.append_nil]

/-- What keeps a live token set from being locked out. -/
structure Unlocked (user : String) (log : GatewayLog ι) (w : World) : Prop where
  spent : ∀ entry ∈ log, ∀ token, spends entry.2 = some token → token ∈ w.spent
  accepted : ∀ entry ∈ log, rejected entry.2 = false
  current : ∀ i c, lastRead user (localEvents i log) = some c →
    c.tokenVersion ≤ tokenVersion user w ∧
    (c.tokenVersion = tokenVersion user w → storedTokens user w = some c.tokens)
  held : ∀ t, Live user log w t → storedTokens user w = some t
  usable : ∀ t, Live user log w t → connectionStatus user w ≠ some .reauthorizationRequired
  unmarked : ∀ t, Live user log w t → ∀ i c, lastRead user (localEvents i log) = some c →
    c.tokenVersion = tokenVersion user w → c.status ≠ .reauthorizationRequired

section Steps
variable {log : GatewayLog ι} {w w' : World} {i : ι} {call : Call} {choice : Choice}
  {r : Except Exc call.Ret}

theorem Unlocked.spent_snoc (h : Unlocked user log w)
    (does : grantMachine sha256Hex w call choice = some (r,w')) :
    ∀ entry ∈ log ++ [(i,⟨call,r⟩)], ∀ token, spends entry.2 = some token → token ∈ w'.spent := by
  obtain ⟨hkeep,hnew,_⟩ := spent_step does
  intro entry hm token hs
  rcases List.mem_append.mp hm with hm | hm
  · exact hkeep _ (h.spent entry hm token hs)
  · rw [List.mem_singleton.mp hm] at hs
    exact hnew token hs

theorem Unlocked.accepted_snoc (h : Unlocked user log w)
    (does : grantMachine sha256Hex w call choice = some (r,w')) :
    ∀ entry ∈ log ++ [(i,⟨call,r⟩)], rejected entry.2 = false := by
  obtain ⟨_,_,haccepted⟩ := spent_step does
  intro entry hm
  rcases List.mem_append.mp hm with hm | hm
  · exact h.accepted entry hm
  · rw [List.mem_singleton.mp hm]
    exact haccepted

/-- A call that neither reads the connection nor writes tokens keeps the invariant
as long as it marks no live token set. -/
theorem Unlocked.kept (h : Unlocked user log w)
    (does : grantMachine sha256Hex w call choice = some (r,w'))
    (hr : reads user ⟨call,r⟩ = none) (hw : writes user ⟨call,r⟩ = none)
    (hs : ∀ t, Live user log w t → connectionStatus user w' ≠ some .reauthorizationRequired) :
    Unlocked user (log ++ [(i,⟨call,r⟩)]) w' := by
  obtain ⟨hkeep,_,_⟩ := spent_step does
  have hstep := writes_step user (Machine.restrict_eq does).2
  unfold WritesTokens at hstep
  rw [hw] at hstep
  obtain ⟨hversion,hstored⟩ := hstep
  have hlive : ∀ t, Live user (log ++ [(i,⟨call,r⟩)]) w' t → Live user log w t :=
    fun t ht => Live.of_snoc hw hkeep ht
  refine ⟨h.spent_snoc does,h.accepted_snoc does,?_,?_,?_,?_⟩
  · intro j c hc
    rw [lastRead_other hr] at hc
    rw [hversion,hstored]
    exact h.current j c hc
  · intro t ht
    rw [hstored]
    exact h.held t (hlive t ht)
  · exact fun t ht => hs t (hlive t ht)
  · intro t ht j c hc hv
    rw [lastRead_other hr] at hc
    rw [hversion] at hv
    exact h.unmarked t (hlive t ht) j c hc hv

/-- A read brings its request up to date. -/
theorem Unlocked.read {c : TeslaConnection} {data : ConnectionDocument} (h : Unlocked user log w)
    (does : grantMachine sha256Hex w (.getConnection user) choice = some (.ok c,w'))
    (hd : w.db.connections user = some data) (hd' : w'.db.connections user = some data)
    (ht : c.tokens = data.encryptedTokens) (hv : c.tokenVersion = data.tokenVersion)
    (hst : c.status = data.status) :
    Unlocked user (log ++ [(i,⟨.getConnection user,.ok c⟩)]) w' := by
  obtain ⟨hkeep,_,_⟩ := spent_step does
  have hlive : ∀ t, Live user (log ++ [(i,⟨.getConnection user,.ok c⟩)]) w' t →
      Live user log w t := fun t ht => Live.of_snoc rfl hkeep ht
  have hversion : tokenVersion user w' = tokenVersion user w := by
    simp [tokenVersion,hd,hd']
  have hstored : storedTokens user w' = storedTokens user w := by
    simp [storedTokens,hd,hd']
  have hstatus : connectionStatus user w' = some c.status := by
    simp [connectionStatus,hd',hst]
  have hsame : connectionStatus user w = some c.status := by
    simp [connectionStatus,hd,hst]
  have hreader : ∀ j d, lastRead user (localEvents j (log ++ [(i,⟨.getConnection user,.ok c⟩)])) =
      some d → d = c ∨ lastRead user (localEvents j log) = some d := by
    intro j d hj
    rw [local_append] at hj
    by_cases hij : i = j
    · subst hij
      rw [local_cons_self,local_nil,lastRead_snoc] at hj
      simp only [reads,if_true,Option.some_or,Option.some.injEq] at hj
      exact .inl hj.symm
    · rw [local_cons_other j i _ [] hij,local_nil,List.append_nil] at hj
      exact .inr hj
  refine ⟨h.spent_snoc does,h.accepted_snoc does,?_,?_,?_,?_⟩
  · intro j d hj
    rcases hreader j d hj with hj | hj
    · subst hj
      have hcur : tokenVersion user w' = d.tokenVersion := by simp [tokenVersion,hd',hv]
      refine ⟨by omega,?_⟩
      intro _
      simp [storedTokens,hd',ht]
    · rw [hversion,hstored]
      exact h.current j d hj
  · intro t hl
    rw [hstored]
    exact h.held t (hlive t hl)
  · intro t hl
    rw [hstatus,← hsame]
    exact h.usable t (hlive t hl)
  · intro t hl j d hj hvd
    rcases hreader j d hj with hj | hj
    · subst hj
      intro hbad
      refine h.usable t (hlive t hl) ?_
      rw [hsame,hbad]
    · rw [hversion] at hvd
      exact h.unmarked t (hlive t hl) j d hj hvd

/-- A committed rotation replaces tokens whose refresh token its request has spent. -/
theorem Unlocked.rotate {v : Nat} {tokens : TokenSet} {c read : TeslaConnection}
    {doc : ConnectionDocument} (h : Unlocked user log w)
    (does : grantMachine sha256Hex w (.rotateTokens user v tokens) choice = some (.ok c,w'))
    (hversion : tokenVersion user w = v) (hd' : w'.db.connections user = some doc)
    (ht : doc.encryptedTokens = tokens) (hv : doc.tokenVersion = v + 1)
    (hst : doc.status = .connected) (hread : lastRead user (localEvents i log) = some read)
    (hcurrent : read.tokenVersion = v)
    (hspent : read.tokens.refreshToken ∈ w.spent) :
    Unlocked user (log ++ [(i,⟨.rotateTokens user v tokens,.ok c⟩)]) w' := by
  obtain ⟨hkeep,_,_⟩ := spent_step does
  have hold : ∀ t, ¬ Live user log w t := by
    intro t hl
    have hstored := (h.current i read hread).2 (by omega)
    rw [h.held t hl] at hstored
    obtain rfl := Option.some.inj hstored
    exact hl.2 hspent
  have hlive : ∀ t, Live user (log ++ [(i,⟨.rotateTokens user v tokens,.ok c⟩)]) w' t →
      t = tokens := by
    intro t hl
    obtain ⟨⟨entry,hm,hw⟩,hn⟩ := hl
    rcases List.mem_append.mp hm with hm | hm
    · exact absurd ⟨⟨entry,hm,hw⟩,fun hs => hn (hkeep _ hs)⟩ (hold t)
    · rw [List.mem_singleton.mp hm] at hw
      simp only [writes,if_true,Option.some.injEq] at hw
      exact hw.symm
  have hnew : tokenVersion user w' = v + 1 := by simp [tokenVersion,hd',hv]
  have hbehind : ∀ j d, lastRead user
      (localEvents j (log ++ [(i,⟨.rotateTokens user v tokens,.ok c⟩)])) = some d →
      d.tokenVersion < tokenVersion user w' := by
    intro j d hj
    rw [lastRead_other rfl] at hj
    have := (h.current j d hj).1
    omega
  refine ⟨h.spent_snoc does,h.accepted_snoc does,?_,?_,?_,?_⟩
  · intro j d hj
    have := hbehind j d hj
    exact ⟨by omega,by omega⟩
  · intro t hl
    rw [hlive t hl]
    simp [storedTokens,hd',ht]
  · intro t _
    simp [connectionStatus,hd',hst]
  · intro t _ j d hj hvd
    have := hbehind j d hj
    omega

/-- The ground for a mark of the version that was read is never a live token set. -/
theorem Unlocked.not_live (h : Unlocked user log w) (hg : Ground user (localEvents i log))
    (hcurrent : ∀ c, lastRead user (localEvents i log) = some c →
      c.tokenVersion = tokenVersion user w) (t : TokenSet) : ¬ Live user log w t := by
  intro hl
  rcases hg with ⟨c,hc,hs | ⟨message,hm⟩⟩ | ⟨e,hm,he⟩
  · exact h.unmarked t hl i c hc (hcurrent c hc) hs
  · have hspent := h.spent _ (mem_local.mp hm) c.tokens.refreshToken rfl
    have hstored := (h.current i c hc).2 (hcurrent c hc)
    rw [h.held t hl] at hstored
    obtain rfl := Option.some.inj hstored
    exact hl.2 hspent
  · have := h.accepted _ (mem_local.mp hm)
    rw [he] at this
    cases this

end Steps

variable {requests : ι → Request} {w₀ w : World} {log : GatewayLog ι} {ps : ι → Onboarding Reply}

/-- Under the condition, the version a marking request read last is the stored one. -/
theorem marked_version {i : ι}
    (run : Run (onboardingMachine sha256Hex) (fun i => requestProgram user (requests i)) w₀ log ps w)
    (hm : MarksWhatItRead user (log ++ [(i,⟨.markReauthorizationRequired user,.ok ()⟩)]))
    {c : TeslaConnection} (hc : lastRead user (localEvents i log) = some c) :
    c.tokenVersion = tokenVersion user w := by
  obtain ⟨before,after,hl,hn⟩ := lastRead_split hc
  obtain ⟨pre,between,rfl,_,hb⟩ := local_split hl
  have hnone := hm pre i c between [] (by simp) (by rw [hb]; exact hn)
  have hcount : writeCount user between = 0 := by
    unfold writeCount
    rw [List.countP_eq_zero]
    intro entry he
    simp [hnone entry he]
  have := version_since_read run
  omega

theorem unlocked_run (hr : ∀ i, (requests i).usesConnection = true)
    (run : Run (grantMachine sha256Hex) (fun i => requestProgram user (requests i)) w₀ log ps w) :
    MarksWhatItRead user log → Unlocked user log w := by
  refine run.invariant (I := fun log w => MarksWhatItRead user log → Unlocked user log w) ?_ ?_
  · intro _
    refine ⟨by simp,by simp,?_,?_,?_,?_⟩
    · intro i c hc
      cases hc
    all_goals
      intro t hl
      obtain ⟨⟨_,hm,_⟩,_⟩ := hl
      cases hm
  · intro log ps w i call k choice r w' before turn does ih hmarks
    have h := ih hmarks.before
    obtain ⟨hkeeps,hallowed⟩ := before.allowed (obeys_request (hr i)) turn
    have hs := docStep sha256Hex user (Machine.restrict_eq does).2
    generalize hold : w.db.connections user = old at hs
    generalize hnew : w'.db.connections user = new at hs
    cases hs with
    | save => cases hkeeps
    | complete => cases hkeeps
    | rotate data tokens c doc ht hv hst =>
      obtain ⟨_,read,hread,hcurrent,hm⟩ := hallowed
      have hversion : tokenVersion user w = data.tokenVersion := by simp [tokenVersion,hold]
      have hspent := h.spent _ (mem_local.mp hm) read.tokens.refreshToken rfl
      exact h.rotate does hversion hnew ht hv hst hread hcurrent hspent
    | mark data =>
      obtain ⟨_,hg⟩ := hallowed
      refine h.kept does rfl rfl ?_
      intro t hl
      exact absurd hl (h.not_live hg (fun c hc => marked_version before.of_restrict hmarks hc) t)
    | read data c ht hv hst => exact h.read does hold hnew ht hv hst
    | other _ _ hw hread =>
      refine h.kept does hread hw ?_
      intro t hl
      have hsame : connectionStatus user w' = connectionStatus user w := by
        simp [connectionStatus,hold,hnew]
      rw [hsame]
      exact h.usable t hl

/-- A request never locks out a good credential as long as it marks only the token
version it read. -/
theorem not_locked_out (hr : ∀ i, (requests i).usesConnection = true)
    (run : Run (grantMachine sha256Hex) (fun i => requestProgram user (requests i)) w₀ log ps w)
    (hm : MarksWhatItRead user log) : NotLockedOut user log w := by
  intro entry he t ht hspent
  exact (unlocked_run hr run hm).usable t ⟨⟨entry,he,rotatesTo_writes ht⟩,hspent⟩

/-- One request rotates and commits while the other marks the version before. -/
def staleMarkSchedule : List (Bool × Choice) :=
  [(false,.success),(true,.success),(false,.tokens (tokenSet "1")),
    (true,.failure reauthorizationRequired),(false,.success),(true,.success)]

/-- Two rotations of one connection end with its fresh refresh token locked out. -/
theorem stale_mark_locks_out :
    ∃ log ps w, Run (grantMachine id) (fun _ : Bool => requestProgram "user" .rotateRefreshToken)
        connectedWorld log ps w ∧
      (∀ i, (ps i).finished = true) ∧ ¬ NotLockedOut "user" log w := by
  obtain ⟨log,ps,w,run,hp⟩ := run_of_schedule (grantMachine id)
    (fun _ : Bool => requestProgram "user" .rotateRefreshToken)
    connectedWorld staleMarkSchedule
    (fun x => (x.2.1 false).finished && (x.2.1 true).finished &&
      (connectionStatus "user" x.2.2 == some .reauthorizationRequired) &&
      x.1.any (fun entry =>
        (rotatesTo "user" entry.2).any (fun t => t.refreshToken ∉ x.2.2.spent))) (by rfl)
  simp only [Bool.and_eq_true,beq_iff_eq] at hp
  obtain ⟨⟨⟨hf,ht⟩,hs⟩,ha⟩ := hp
  refine ⟨log,ps,w,run,fun i => by cases i <;> assumption,?_⟩
  intro hn
  obtain ⟨entry,hm,hr⟩ := List.any_eq_true.mp ha
  obtain ⟨t,ht,hspent⟩ := (Option.any_eq_true ..).mp hr
  exact hn entry hm t ht (of_decide_eq_true hspent) hs

def marks (user : String) : OnboardingEvent → Bool
  | ⟨.markReauthorizationRequired owner,.ok _⟩ => owner == user
  | _ => false

/-- Marks before every token write are marks of what was read. -/
theorem marksWhatItRead_of_pairwise {log : GatewayLog ι}
    (h : log.Pairwise (fun a b => (!marks user b.2 || (writes user a.2).isNone) = true)) :
    MarksWhatItRead user log := by
  intro pre i c between post hlog _ entry he
  rw [hlog] at h
  obtain ⟨_,hafter⟩ := List.pairwise_cons.mp (List.pairwise_append.mp h).2.1
  obtain ⟨_,_,hbefore⟩ := List.pairwise_append.mp hafter
  have hmark := hbefore entry he _ List.mem_cons_self
  simpa [marks] using hmark

/-- The same two requests, when the loser's mark lands before the winner commits. -/
def earlyMarkSchedule : List (Bool × Choice) :=
  [(false,.success),(true,.success),(false,.tokens (tokenSet "1")),
    (true,.failure reauthorizationRequired),(true,.success),(false,.success)]

/-- A mark of the version that was read and a committed rotation: the rotated token stays usable. -/
theorem not_locked_out_early_mark :
    ∃ log ps w, Run (grantMachine id) (fun _ : Bool => requestProgram "user" .rotateRefreshToken)
        connectedWorld log ps w ∧
      (∀ i, (ps i).finished = true) ∧ (∃ entry ∈ log, marks "user" entry.2 = true) ∧
      (∃ entry ∈ log, ∃ t, rotatesTo "user" entry.2 = some t ∧ t.refreshToken ∉ w.spent) ∧
      NotLockedOut "user" log w := by
  obtain ⟨log,ps,w,run,hp⟩ := run_of_schedule (grantMachine id)
    (fun _ : Bool => requestProgram "user" .rotateRefreshToken)
    connectedWorld earlyMarkSchedule
    (fun x => (x.2.1 false).finished && (x.2.1 true).finished &&
      x.1.any (fun entry => marks "user" entry.2) &&
      x.1.any (fun entry =>
        (rotatesTo "user" entry.2).any (fun t => t.refreshToken ∉ x.2.2.spent)) &&
      decide (x.1.Pairwise (fun a b =>
        (!marks "user" b.2 || (writes "user" a.2).isNone) = true))) (by rfl)
  simp only [Bool.and_eq_true] at hp
  obtain ⟨⟨⟨⟨hfalse,htrue⟩,hmark⟩,hrotated⟩,hearly⟩ := hp
  refine ⟨log,ps,w,run,fun i => by cases i <;> assumption,List.any_eq_true.mp hmark,?_,?_⟩
  · obtain ⟨entry,hm,hr⟩ := List.any_eq_true.mp hrotated
    obtain ⟨t,ht,hspent⟩ := (Option.any_eq_true ..).mp hr
    exact ⟨entry,hm,t,ht,of_decide_eq_true hspent⟩
  · exact not_locked_out (fun _ => rfl) run
      (marksWhatItRead_of_pairwise (of_decide_eq_true hearly))

end Woodhouse.Gateway
