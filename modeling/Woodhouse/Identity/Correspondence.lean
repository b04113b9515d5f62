import Woodhouse.Identity.Memory

namespace Woodhouse.Identity
open Effects

variable (sha256Hex casefold : String → String)

/-- The document of a record. -/
def AllowedUser.document (user : AllowedUser) : AllowedUserDocument :=
  { userId := user.userId
    datasetId := user.datasetId
    status := user.status
    oidcIssuer := user.oidcIssuer
    oidcSubject := user.oidcSubject }

/-- A record with this identity on it. -/
def AllowedUser.BoundTo (user : AllowedUser) (issuer subject : String) : Prop :=
  user.oidcIssuer = some issuer ∧ user.oidcSubject = some subject

/-- The same well-formed state in both stores. A record may be disabled or partially bound. -/
structure Corresponds (m : InMemoryIdentityStore) (d : Directory) : Prop where
  records : ∀ email, d.allowedUsers email = (m.users email).map AllowedUser.document
  configured : ∀ email user, m.users email = some user → user.userId ≠ "" ∧ user.datasetId ≠ ""
  bindings : ∀ issuer subject email, m.bindings (issuer,subject) = some email ↔
    ∃ user, m.users email = some user ∧ user.BoundTo issuer subject
  documents : ∀ issuer subject email, m.bindings (issuer,subject) = some email →
    ∃ b, d.oidcIdentities (identityDocumentId sha256Hex issuer subject) = some b ∧
      b.oidcIssuer = issuer ∧ b.oidcSubject = subject
  documented : ∀ key b, d.oidcIdentities key = some b →
    key = identityDocumentId sha256Hex b.oidcIssuer b.oidcSubject ∧
    ∃ email user, normalizeEmail casefold b.allowlistEmail = .ok email ∧
      m.users email = some user ∧ user.BoundTo b.oidcIssuer b.oidcSubject ∧ user.userId = b.userId

/-- A committed login, or the exception of a transaction that commits nothing. -/
def Directory.login (d : Directory) (identity : VerifiedIdentity) :
    Except Exc UserContext × Directory :=
  match d.resolveOrBind sha256Hex casefold identity with
  | .ok (c,d') => (.ok c,d')
  | .error e => (.error e,d)

/-- What a caller sees: the user context, or the class of the exception. -/
def observed {σ : Type} (step : σ → VerifiedIdentity → Except Exc UserContext × σ) (s : σ)
    (identity : VerifiedIdentity) : Except String UserContext × σ :=
  ((step s identity).1.mapError Exc.className,(step s identity).2)

/-- The identities that records hold or calls present. -/
def presented (m : InMemoryIdentityStore) (calls : List VerifiedIdentity) :
    Set (String × String) :=
  {key | (∃ email, m.bindings key = some email) ∨
    ∃ identity ∈ calls, key = (identity.issuer,identity.subject)}

/-- No two of these identities share a document. -/
def OwnDocuments (keys : Set (String × String)) : Prop :=
  Set.InjOn (fun key => identityDocumentId sha256Hex key.1 key.2) keys

/-- Both stores answer every sequence of logins alike and end in corresponding states. -/
def AgreesOn (m : InMemoryIdentityStore) (d : Directory) (calls : List VerifiedIdentity) : Prop :=
  (transcript (observed (InMemoryIdentityStore.resolveOrBind casefold)) m calls).1 =
      (transcript (observed (Directory.login sha256Hex casefold)) d calls).1 ∧
    Corresponds sha256Hex casefold
      (transcript (observed (InMemoryIdentityStore.resolveOrBind casefold)) m calls).2
      (transcript (observed (Directory.login sha256Hex casefold)) d calls).2

/-- What one call does to both stores: the same answer, and either both stay or both bind. -/
inductive SameCall (m : InMemoryIdentityStore) (d : Directory) (identity : VerifiedIdentity) : Prop
  | stay (answer : (m.resolveOrBind casefold identity).1 = (d.login sha256Hex casefold identity).1)
      (memory : (m.resolveOrBind casefold identity).2 = m)
      (directory : (d.login sha256Hex casefold identity).2 = d)
  | bind (email : String) (user : AllowedUser)
      (answer : (m.resolveOrBind casefold identity).1 = (d.login sha256Hex casefold identity).1)
      (memory : (m.resolveOrBind casefold identity).2 = m.bind email user identity)
      (corresponds : Corresponds sha256Hex casefold (m.resolveOrBind casefold identity).2
        (d.login sha256Hex casefold identity).2)

variable {sha256Hex casefold} {m : InMemoryIdentityStore} {d : Directory}

section Records

theorem BoundTo.paired {user : AllowedUser} {issuer subject : String}
    (h : user.BoundTo issuer subject) : user.oidcIssuer.isNone = user.oidcSubject.isNone := by
  rw [h.1, h.2]
  rfl

theorem document_record (email : String) {user : AllowedUser}
    (configured : user.userId ≠ "" ∧ user.datasetId ≠ "")
    (paired : user.oidcIssuer.isNone = user.oidcSubject.isNone) :
    recordFromData email user.document = .ok { user with invitationEmail := email } := by
  unfold recordFromData AllowedUser.document
  rw [if_neg configured.1, if_neg configured.2, if_neg (not_not.mpr paired)]

theorem document_partial {email : String} {user : AllowedUser}
    (configured : user.userId ≠ "" ∧ user.datasetId ≠ "")
    (unpaired : user.oidcIssuer.isNone ≠ user.oidcSubject.isNone) :
    recordFromData email user.document =
      .error (.configuration "Allowlist immutable identity is partially bound") := by
  unfold recordFromData AllowedUser.document
  rw [if_neg configured.1, if_neg configured.2, if_pos unpaired]

theorem complete_ok {user : AllowedUser}
    (paired : user.oidcIssuer.isNone = user.oidcSubject.isNone) :
    InMemoryIdentityStore.requireCompleteBinding user = .ok () := if_neg (not_not.mpr paired)

theorem complete_error {user : AllowedUser}
    (unpaired : user.oidcIssuer.isNone ≠ user.oidcSubject.isNone) :
    InMemoryIdentityStore.requireCompleteBinding user =
      .error (.configuration "Allowlist immutable identity is partially bound") := if_pos unpaired

/-- On a configured, completely bound record both `_context` agree. -/
theorem context_agrees (email : String) {user : AllowedUser} {identity : VerifiedIdentity}
    (configured : user.userId ≠ "" ∧ user.datasetId ≠ "")
    (paired : user.oidcIssuer.isNone = user.oidcSubject.isNone) :
    InMemoryIdentityStore.context user identity =
      context { user with invitationEmail := email } identity := by
  unfold InMemoryIdentityStore.context context
  rw [complete_ok paired]
  have hactive : requireActive { user with invitationEmail := email } = requireActive user := rfl
  have hids : ¬(user.userId = "" ∨ user.datasetId = "") := by
    intro h
    rcases h with h | h
    · exact configured.1 h
    · exact configured.2 h
  rw [hactive]
  cases requireActive user with
  | error e => rfl
  | ok u => simp only [if_neg hids]

end Records

section Logins
variable {identity : VerifiedIdentity}

theorem allowedUser_of {email key : String} (h : normalizeEmail casefold email = .ok key) :
    d.allowedUser casefold email = .ok (key,d.allowedUsers key) := by
  unfold Directory.allowedUser
  rw [h]

theorem login_error {e : Exc} (h : d.resolveOrBind sha256Hex casefold identity = .error e) :
    d.login sha256Hex casefold identity = (.error e,d) := by
  unfold Directory.login
  rw [h]

theorem login_ok {c : UserContext} {d' : Directory}
    (h : d.resolveOrBind sha256Hex casefold identity = .ok (c,d')) :
    d.login sha256Hex casefold identity = (.ok c,d') := by
  unfold Directory.login
  rw [h]

/-- The document of a bound identity names the record the fake has bound it to. -/
theorem Corresponds.document_of (h : Corresponds sha256Hex casefold m d) {email : String}
    (hbound : m.bindings (identity.issuer,identity.subject) = some email) :
    ∃ b user,
      d.oidcIdentities (identityDocumentId sha256Hex identity.issuer identity.subject) = some b ∧
      b.oidcIssuer = identity.issuer ∧ b.oidcSubject = identity.subject ∧
      normalizeEmail casefold b.allowlistEmail = .ok email ∧ m.users email = some user ∧
      user.BoundTo identity.issuer identity.subject ∧ user.userId = b.userId := by
  obtain ⟨b, hb, hissuer, hsubject⟩ := h.documents _ _ _ hbound
  obtain ⟨_, email', user, hkey, huser, hto, hid⟩ := h.documented _ _ hb
  rw [hissuer, hsubject] at hto
  have hbound' := (h.bindings identity.issuer identity.subject email').mpr ⟨user, huser, hto⟩
  obtain rfl := Option.some.inj (hbound.symm.trans hbound')
  exact ⟨b, user, hb, hissuer, hsubject, hkey, huser, hto, hid⟩

/-- A later login: both stores check the bound record, and neither writes. -/
theorem Corresponds.resolved (h : Corresponds sha256Hex casefold m d) {email : String}
    (hbound : m.bindings (identity.issuer,identity.subject) = some email) :
    (m.resolveOrBind casefold identity).1 = (d.login sha256Hex casefold identity).1 ∧
      (m.resolveOrBind casefold identity).2 = m ∧ (d.login sha256Hex casefold identity).2 = d := by
  obtain ⟨b, user, hb, hissuer, hsubject, hkey, huser, hto, hid⟩ := h.document_of hbound
  have hconfigured := h.configured email user huser
  have hmemory : m.resolveOrBind casefold identity =
      (InMemoryIdentityStore.context user identity,m) := by
    unfold InMemoryIdentityStore.resolveOrBind
    rw [hbound]
    dsimp only
    rw [huser]
  have hdirectory : d.resolveOrBind sha256Hex casefold identity =
      (context { user with invitationEmail := b.allowlistEmail } identity).map
        (fun c => (c,d)) := by
    unfold Directory.resolveOrBind
    rw [hb]
    dsimp only
    unfold Directory.resolveBound
    rw [if_neg (not_not.mpr (by rw [hissuer, hsubject])), allowedUser_of hkey, h.records, huser]
    dsimp only [Option.map_some]
    rw [document_record b.allowlistEmail hconfigured (BoundTo.paired hto)]
    dsimp only
    rw [if_neg (not_not.mpr hid.symm)]
  rw [hmemory, context_agrees b.allowlistEmail hconfigured (BoundTo.paired hto)]
  cases hc : context { user with invitationEmail := b.allowlistEmail } identity with
  | error e =>
    rw [hc] at hdirectory
    rw [login_error hdirectory]
    exact ⟨rfl, rfl, rfl⟩
  | ok c =>
    rw [hc] at hdirectory
    rw [login_ok hdirectory]
    exact ⟨rfl, rfl, rfl⟩

/-- A first login writes the record and its binding on both sides. -/
theorem Corresponds.bind (h : Corresponds sha256Hex casefold m d) {email : String}
    {user : AllowedUser} (huser : m.users email = some user)
    (hkey : normalizeEmail casefold email = .ok email)
    (hunbound : user.oidcIssuer = none)
    (hnew : m.bindings (identity.issuer,identity.subject) = none)
    (hfree : d.oidcIdentities (identityDocumentId sha256Hex identity.issuer identity.subject) =
      none) :
    Corresponds sha256Hex casefold
      (m.bind email { user with oidcIssuer := some identity.issuer
                                oidcSubject := some identity.subject } identity)
      ((d.setUser email { user.document with
          oidcIssuer := some identity.issuer, oidcSubject := some identity.subject }).createIdentity
        (identityDocumentId sha256Hex identity.issuer identity.subject)
        { allowlistEmail := email, oidcIssuer := identity.issuer,
          oidcSubject := identity.subject, userId := user.userId }) := by
  -- no record holds the identity that is bound now, and this record holds none
  have hothers : ∀ email' other, m.users email' = some other →
      ¬other.BoundTo identity.issuer identity.subject := by
    intro email' other hother hto
    have hbound := (h.bindings identity.issuer identity.subject email').mpr ⟨other, hother, hto⟩
    rw [hnew] at hbound
    cases hbound
  have hopen : ∀ other issuer subject, m.users email = some other →
      ¬other.BoundTo issuer subject := by
    intro other issuer subject hother hto
    obtain rfl := Option.some.inj (huser.symm.trans hother)
    have hissuer := hto.1
    rw [hunbound] at hissuer
    cases hissuer
  constructor
  case records =>
    intro email'
    rw [Directory.createIdentity_users]
    by_cases hsame : email' = email
    · subst hsame
      rw [Directory.setUser_self, InMemoryIdentityStore.bind_users_self]
      rfl
    · rw [Directory.setUser_other _ hsame, InMemoryIdentityStore.bind_users_other hsame, h.records]
  case configured =>
    intro email' user' huser'
    by_cases hsame : email' = email
    · subst hsame
      rw [InMemoryIdentityStore.bind_users_self] at huser'
      obtain rfl := Option.some.inj huser'
      exact h.configured _ user huser
    · rw [InMemoryIdentityStore.bind_users_other hsame] at huser'
      exact h.configured email' user' huser'
  case bindings =>
    intro issuer subject email'
    by_cases hthis : (issuer,subject) = (identity.issuer,identity.subject)
    · obtain ⟨rfl, rfl⟩ := Prod.mk.inj hthis
      rw [InMemoryIdentityStore.bind_bindings_self]
      constructor
      · intro hemail
        obtain rfl := Option.some.inj hemail
        exact ⟨_, InMemoryIdentityStore.bind_users_self, rfl, rfl⟩
      · intro hnow
        obtain ⟨user', huser', hto⟩ := hnow
        by_cases hsame : email' = email
        · rw [hsame]
        · rw [InMemoryIdentityStore.bind_users_other hsame] at huser'
          exact absurd hto (hothers email' user' huser')
    · rw [InMemoryIdentityStore.bind_bindings_other hthis, h.bindings]
      by_cases hsame : email' = email
      · subst hsame
        rw [InMemoryIdentityStore.bind_users_self]
        constructor
        · intro hold
          obtain ⟨user', huser', hto⟩ := hold
          exact absurd hto (hopen user' issuer subject huser')
        · intro hnow
          obtain ⟨user', huser', hto⟩ := hnow
          obtain rfl := Option.some.inj huser'
          exact absurd (Prod.ext (Option.some.inj hto.1).symm (Option.some.inj hto.2).symm) hthis
      · rw [InMemoryIdentityStore.bind_users_other hsame]
  case documents =>
    intro issuer subject email' hbound
    by_cases hthis : (issuer,subject) = (identity.issuer,identity.subject)
    · obtain ⟨rfl, rfl⟩ := Prod.mk.inj hthis
      exact ⟨_, Directory.createIdentity_self .., rfl, rfl⟩
    · rw [InMemoryIdentityStore.bind_bindings_other hthis] at hbound
      obtain ⟨b, hb, hrest⟩ := h.documents issuer subject email' hbound
      refine ⟨b, ?_, hrest⟩
      rw [Directory.createIdentity_other]
      · exact hb
      · intro hcollision
        rw [hcollision, hfree] at hb
        cases hb
  case documented =>
    intro key b hb
    by_cases hown : key = identityDocumentId sha256Hex identity.issuer identity.subject
    · subst hown
      rw [Directory.createIdentity_self] at hb
      obtain rfl := Option.some.inj hb
      exact ⟨rfl, email, _, hkey, InMemoryIdentityStore.bind_users_self, ⟨rfl, rfl⟩, rfl⟩
    · rw [Directory.createIdentity_other _ hown] at hb
      obtain ⟨hid, email', user', hkey', huser', hto, huserId⟩ := h.documented key b hb
      have hne : email' ≠ email := by
        intro hsame
        rw [hsame] at huser'
        exact hopen user' _ _ huser' hto
      refine ⟨hid, email', user', hkey', ?_, hto, huserId⟩
      rw [InMemoryIdentityStore.bind_users_other hne]
      exact huser'

/-- The identities still to come are among those presented before. -/
theorem presented_bind {calls : List VerifiedIdentity} {email : String} {user : AllowedUser} :
    presented (m.bind email user identity) calls ⊆ presented m (identity::calls) := by
  intro key hkey
  by_cases hthis : key = (identity.issuer,identity.subject)
  · exact Or.inr ⟨identity, List.mem_cons_self, hthis⟩
  · rcases hkey with hbound | hcalled
    · obtain ⟨email', hbound⟩ := hbound
      rw [InMemoryIdentityStore.bind_bindings_other hthis] at hbound
      exact Or.inl ⟨email', hbound⟩
    · obtain ⟨later, hmem, hkey⟩ := hcalled
      exact Or.inr ⟨later, List.mem_cons_of_mem _ hmem, hkey⟩

theorem presented_rest {calls : List VerifiedIdentity} :
    presented m calls ⊆ presented m (identity::calls) := by
  intro key hkey
  rcases hkey with hbound | hcalled
  · exact Or.inl hbound
  · obtain ⟨later, hmem, hkey⟩ := hcalled
    exact Or.inr ⟨later, List.mem_cons_of_mem _ hmem, hkey⟩

/-- An identity no record holds has no document, unless it shares another one's. -/
theorem Corresponds.undocumented (h : Corresponds sha256Hex casefold m d)
    {calls : List VerifiedIdentity}
    (own : OwnDocuments sha256Hex (presented m (identity::calls)))
    (hnew : m.bindings (identity.issuer,identity.subject) = none) :
    d.oidcIdentities (identityDocumentId sha256Hex identity.issuer identity.subject) = none := by
  cases hb : d.oidcIdentities (identityDocumentId sha256Hex identity.issuer identity.subject) with
  | none => rfl
  | some b =>
    obtain ⟨hcollision, email, user, _, huser, hto, _⟩ := h.documented _ b hb
    have hheld := (h.bindings b.oidcIssuer b.oidcSubject email).mpr ⟨user, huser, hto⟩
    have hsame : (identity.issuer,identity.subject) = (b.oidcIssuer,b.oidcSubject) :=
      own (Or.inr ⟨identity, List.mem_cons_self, rfl⟩) (Or.inl ⟨email, hheld⟩) hcollision
    rw [← hsame, hnew] at hheld
    cases hheld

theorem SameCall.raised {e : Exc} (hm : m.resolveOrBind casefold identity = (.error e,m))
    (hd : d.resolveOrBind sha256Hex casefold identity = .error e) :
    SameCall sha256Hex casefold m d identity := by
  refine .stay ?_ ?_ ?_
  · rw [hm, login_error hd]
  · rw [hm]
  · rw [login_error hd]

/-- The first login of an active, unbound invitation. -/
theorem Corresponds.firstBinds (h : Corresponds sha256Hex casefold m d) {email : String}
    {user : AllowedUser} (hkey : normalizeEmail casefold email = .ok email)
    (hlogin : firstLoginInvitationEmail casefold identity = .ok email)
    (huser : m.users email = some user) (hactive : requireActive user = .ok ())
    (hunbound : user.oidcIssuer = none ∧ user.oidcSubject = none)
    (hnew : m.bindings (identity.issuer,identity.subject) = none)
    (hfree : d.oidcIdentities (identityDocumentId sha256Hex identity.issuer identity.subject) =
      none) :
    SameCall sha256Hex casefold m d identity := by
  have hconfigured := h.configured email user huser
  have hpaired : user.oidcIssuer.isNone = user.oidcSubject.isNone := by
    rw [hunbound.1, hunbound.2]
  have hopen : ¬(user.oidcIssuer ≠ none ∨ user.oidcSubject ≠ none) := by
    intro hheld
    rcases hheld with hissuer | hsubject
    · exact hissuer hunbound.1
    · exact hsubject hunbound.2
  let bound : AllowedUser :=
    { user with oidcIssuer := some identity.issuer, oidcSubject := some identity.subject }
  let answer : UserContext :=
    { userId := user.userId, datasetId := user.datasetId, oidcIssuer := identity.issuer,
      oidcSubject := identity.subject }
  have hcontext : context { bound with invitationEmail := email } identity = .ok answer := by
    have hactive' : requireActive { bound with invitationEmail := email } = .ok () := hactive
    unfold context
    rw [hactive']
    simp [bound, answer]
  have hconfigured' : bound.userId ≠ "" ∧ bound.datasetId ≠ "" := hconfigured
  have hanswer : InMemoryIdentityStore.context bound identity = .ok answer := by
    rw [context_agrees email hconfigured' rfl]
    exact hcontext
  have hmemory : m.resolveOrBind casefold identity = (.ok answer,m.bind email bound identity) := by
    simp only [InMemoryIdentityStore.resolveOrBind, hnew, hlogin, huser, complete_ok hpaired,
      hactive, if_neg hopen]
    rw [hanswer]
  have hread : d.allowedUser casefold email = .ok (email,some user.document) := by
    rw [allowedUser_of hkey, h.records, huser]
    rfl
  have hdirectory : d.resolveOrBind sha256Hex casefold identity = .ok (answer,
      (d.setUser email { user.document with
          oidcIssuer := some identity.issuer, oidcSubject := some identity.subject }).createIdentity
        (identityDocumentId sha256Hex identity.issuer identity.subject)
        { allowlistEmail := email, oidcIssuer := identity.issuer,
          oidcSubject := identity.subject, userId := user.userId }) := by
    have hactive' : requireActive { user with invitationEmail := email } = .ok () := hactive
    simp only [Directory.resolveOrBind, hfree, Directory.bindFirst, hlogin, hread,
      document_record email hconfigured hpaired, hactive', Directory.bindRecord, if_neg hopen]
    rw [hcontext]
  refine .bind email bound ?_ ?_ ?_
  · rw [hmemory, login_ok hdirectory]
  · rw [hmemory]
  · rw [hmemory, login_ok hdirectory]
    exact h.bind huser hkey hunbound.1 hnew hfree

/-- A login without a document: the same checks in the same order. -/
theorem Corresponds.first (h : Corresponds sha256Hex casefold m d) (folding : Folding casefold)
    (hnew : m.bindings (identity.issuer,identity.subject) = none)
    (hfree : d.oidcIdentities (identityDocumentId sha256Hex identity.issuer identity.subject) =
      none) :
    SameCall sha256Hex casefold m d identity := by
  have hdirectory : d.resolveOrBind sha256Hex casefold identity =
      d.bindFirst sha256Hex casefold identity := by
    unfold Directory.resolveOrBind
    rw [hfree]
  cases hlogin : firstLoginInvitationEmail casefold identity with
  | error e =>
    have hmemory : m.resolveOrBind casefold identity = (.error e,m) := by
      simp only [InMemoryIdentityStore.resolveOrBind, hnew, hlogin]
    have hd : d.bindFirst sha256Hex casefold identity = .error e := by
      simp only [Directory.bindFirst, hlogin]
    exact .raised hmemory (hdirectory.trans hd)
  | ok email =>
    have hkey := firstLogin_normalized folding hlogin
    have hread : d.allowedUser casefold email =
        .ok (email,(m.users email).map AllowedUser.document) := by
      rw [allowedUser_of hkey, h.records]
    cases huser : m.users email with
    | none =>
      rw [huser] at hread
      have hmemory : m.resolveOrBind casefold identity =
          (.error (.userNotAllowed "No active invitation"),m) := by
        simp only [InMemoryIdentityStore.resolveOrBind, hnew, hlogin, huser]
      have hd : d.bindFirst sha256Hex casefold identity =
          .error (.userNotAllowed "No active invitation") := by
        simp only [Directory.bindFirst, hlogin, hread, Option.map_none]
      exact .raised hmemory (hdirectory.trans hd)
    | some user =>
      rw [huser] at hread
      have hconfigured := h.configured email user huser
      by_cases hpaired : user.oidcIssuer.isNone = user.oidcSubject.isNone
      · have hrecord := document_record email hconfigured hpaired
        have hcomplete := complete_ok hpaired
        cases hactive : requireActive user with
        | error e =>
          have hactive' : requireActive { user with invitationEmail := email } = .error e := hactive
          have hmemory : m.resolveOrBind casefold identity = (.error e,m) := by
            simp only [InMemoryIdentityStore.resolveOrBind, hnew, hlogin, huser, hcomplete, hactive]
          have hd : d.bindFirst sha256Hex casefold identity = .error e := by
            simp only [Directory.bindFirst, hlogin, hread, Option.map_some, hrecord, hactive']
          exact .raised hmemory (hdirectory.trans hd)
        | ok u =>
          have hactive' : requireActive { user with invitationEmail := email } = .ok u := hactive
          by_cases hheld : user.oidcIssuer ≠ none ∨ user.oidcSubject ≠ none
          · -- the record of this identity has its binding, so another one holds this record
            have hother : (user.oidcIssuer,user.oidcSubject) ≠
                (some identity.issuer,some identity.subject) := by
              intro hsame
              obtain ⟨hissuer, hsubject⟩ := Prod.mk.inj hsame
              have hbound := (h.bindings identity.issuer identity.subject email).mpr
                ⟨user, huser, hissuer, hsubject⟩
              rw [hnew] at hbound
              cases hbound
            have hmemory : m.resolveOrBind casefold identity =
                (.error (.identityMismatch "Invitation is bound to another identity"),m) := by
              simp only [InMemoryIdentityStore.resolveOrBind, hnew, hlogin, huser, hcomplete,
                hactive, if_pos hheld, if_pos hother]
            have hd : d.bindFirst sha256Hex casefold identity =
                .error (.identityMismatch "Invitation is bound to another identity") := by
              simp only [Directory.bindFirst, hlogin, hread, Option.map_some, hrecord, hactive',
                Directory.bindRecord, if_pos hheld, if_pos hother]
            exact .raised hmemory (hdirectory.trans hd)
          · exact h.firstBinds hkey hlogin huser hactive (by push Not at hheld; exact hheld)
              hnew hfree
      · have hmemory : m.resolveOrBind casefold identity =
            (.error (.configuration "Allowlist immutable identity is partially bound"),m) := by
          simp only [InMemoryIdentityStore.resolveOrBind, hnew, hlogin, huser,
            complete_error hpaired]
        have hd : d.bindFirst sha256Hex casefold identity =
            .error (.configuration "Allowlist immutable identity is partially bound") := by
          simp only [Directory.bindFirst, hlogin, hread, Option.map_some,
            document_partial hconfigured hpaired]
        exact .raised hmemory (hdirectory.trans hd)

theorem Corresponds.call (h : Corresponds sha256Hex casefold m d) (folding : Folding casefold)
    {calls : List VerifiedIdentity}
    (own : OwnDocuments sha256Hex (presented m (identity::calls))) :
    SameCall sha256Hex casefold m d identity := by
  cases hbound : m.bindings (identity.issuer,identity.subject) with
  | some email =>
    obtain ⟨hanswer, hmemory, hdirectory⟩ := h.resolved hbound
    exact .stay hanswer hmemory hdirectory
  | none => exact h.first folding hbound (h.undocumented own hbound)

end Logins

/-- While no two identities share a document, the fake answers every sequence of logins as the
Firestore store does: the same context or an exception of the same class at every call. -/
theorem memory_faithful (folding : Folding casefold) (h : Corresponds sha256Hex casefold m d)
    (calls : List VerifiedIdentity) (own : OwnDocuments sha256Hex (presented m calls)) :
    AgreesOn sha256Hex casefold m d calls := by
  let Related (rest : List VerifiedIdentity) (m' : InMemoryIdentityStore) (d' : Directory) : Prop :=
    Corresponds sha256Hex casefold m' d' ∧ OwnDocuments sha256Hex (presented m' rest)
  have hstep : ∀ identity rest m' d', Related (identity::rest) m' d' →
      (observed (InMemoryIdentityStore.resolveOrBind casefold) m' identity).1 =
          (observed (Directory.login sha256Hex casefold) d' identity).1 ∧
        Related rest (observed (InMemoryIdentityStore.resolveOrBind casefold) m' identity).2
          (observed (Directory.login sha256Hex casefold) d' identity).2 := by
    intro identity rest m' d' hrelated
    obtain ⟨hcorresponds, hown⟩ := hrelated
    cases hcorresponds.call folding hown with
    | stay answer memory directory =>
      refine ⟨congrArg (Except.mapError Exc.className) answer, ?_⟩
      simp only [observed, memory, directory]
      exact ⟨hcorresponds, hown.mono presented_rest⟩
    | bind email user answer memory corresponds =>
      refine ⟨congrArg (Except.mapError Exc.className) answer, corresponds, ?_⟩
      simp only [observed, memory]
      exact hown.mono presented_bind
  obtain ⟨hanswers, hlast, _⟩ := transcript_agrees (R := Related) hstep ⟨h, own⟩
  exact ⟨hanswers, hlast⟩

section Invited

def invitation : AllowedUser :=
  { invitationEmail := "ann@example.org", userId := "usr_1", datasetId := "tesla_u_1",
    status := .active }

/-- One open invitation. -/
def invitedStore : InMemoryIdentityStore :=
  { users := Function.update (fun _ => none) "ann@example.org" (some invitation)
    bindings := fun _ => none }

def invitedDirectory : Directory := emptyDirectory.setUser "ann@example.org" invitation.document

theorem invited_other {email : String} (h : email ≠ "ann@example.org") :
    invitedStore.users email = none := by
  simp [invitedStore, Function.update_of_ne h]

theorem invited_user {email : String} {user : AllowedUser}
    (h : invitedStore.users email = some user) : user = invitation := by
  by_cases hsame : email = "ann@example.org"
  · subst hsame
    exact (Option.some.inj h).symm
  · rw [invited_other hsame] at h
    cases h

theorem invited_corresponds : Corresponds sha256Hex id invitedStore invitedDirectory := by
  constructor
  case records =>
    intro email
    by_cases hsame : email = "ann@example.org"
    · subst hsame
      rfl
    · rw [invitedDirectory, Directory.setUser_other _ hsame, invited_other hsame]
      rfl
  case configured =>
    intro email user huser
    obtain rfl := invited_user huser
    decide
  case bindings =>
    intro issuer subject email
    constructor
    · intro hbound
      cases hbound
    · intro hheld
      obtain ⟨user, huser, hto⟩ := hheld
      obtain rfl := invited_user huser
      cases hto.1
  case documents =>
    intro issuer subject email hbound
    cases hbound
  case documented =>
    intro key b hb
    cases hb

/-- A login identity with a verified email. -/
def annIdentity : VerifiedIdentity :=
  { issuer := "https://issuer.example", subject := "ann", email := some "ann@example.org",
    emailVerified := true, issuer_nonempty := by decide, subject_nonempty := by decide }

def strangerIdentity : VerifiedIdentity :=
  { issuer := "https://issuer.example", subject := "bob", email := some "ann@example.org",
    emailVerified := true, issuer_nonempty := by decide, subject_nonempty := by decide }

/-- The digests of the two identities. -/
def invitedDigest (text : String) : String :=
  if text = "https://issuer.example\x00ann" then
    "cca102ed7c60961b8c6346db93381430e37f1a1cb19024504b6a1e7129ac11e0"
  else if text = "https://issuer.example\x00bob" then
    "511743faee277ade687183d71358bc6ae179b30237e56528bbd2cdbe489aa93f"
  else ""

theorem memory_faithful_invited :
    AgreesOn invitedDigest id invitedStore invitedDirectory
      [annIdentity,strangerIdentity,annIdentity] := by
  refine memory_faithful ⟨fun _ => rfl, strip_strip⟩ invited_corresponds _ ?_
  intro key hkey key' hkey' hsame
  have hcalled : ∀ key ∈ presented invitedStore [annIdentity,strangerIdentity,annIdentity],
      key = ("https://issuer.example","ann") ∨ key = ("https://issuer.example","bob") := by
    intro key hkey
    rcases hkey with hbound | hcalled
    · obtain ⟨email, hbound⟩ := hbound
      cases hbound
    · obtain ⟨identity, hmem, rfl⟩ := hcalled
      simp only [List.mem_cons, List.not_mem_nil, or_false] at hmem
      rcases hmem with rfl | rfl | rfl
      · exact Or.inl rfl
      · exact Or.inr rfl
      · exact Or.inl rfl
  rcases hcalled key hkey with rfl | rfl <;> rcases hcalled key' hkey' with rfl | rfl
  · rfl
  · exact absurd hsame (by decide)
  · exact absurd hsame (by decide)
  · rfl

/-- The issuer and the subject of one identity, cut at another place. -/
def firstCut : VerifiedIdentity :=
  { issuer := "a\x00b", subject := "c", issuer_nonempty := by decide
    subject_nonempty := by decide }

def secondCut : VerifiedIdentity :=
  { issuer := "a", subject := "b\x00c", issuer_nonempty := by decide
    subject_nonempty := by decide }

/-- The invitation once the first of them has logged in. -/
def boundStore : InMemoryIdentityStore :=
  invitedStore.bind "ann@example.org"
    { invitation with oidcIssuer := some firstCut.issuer, oidcSubject := some firstCut.subject }
    firstCut

/-- Whatever the hash is, an identity that shares a document with a bound one is answered by
the Firestore store with a configuration error and by the fake as a first login. -/
theorem memory_not_faithful : ¬∃ sha256Hex : String → String,
    ∀ m d, Corresponds sha256Hex id m d → ∀ calls, AgreesOn sha256Hex id m d calls := by
  intro hfaithful
  obtain ⟨sha256Hex, hall⟩ := hfaithful
  have hbound : Corresponds sha256Hex id boundStore _ :=
    invited_corresponds.bind rfl (by decide) rfl rfl rfl
  have hagree := (hall _ _ hbound [secondCut]).1
  have hmemory : boundStore.resolveOrBind id secondCut =
      (.error (.emailNotVerified "Verified email is required for first login"),boundStore) := rfl
  have hdirectory : ∀ (d : Directory) (b : IdentityDocument),
      d.oidcIdentities (identityDocumentId sha256Hex secondCut.issuer secondCut.subject) = some b →
      b.oidcIssuer = firstCut.issuer →
      d.resolveOrBind sha256Hex id secondCut =
        .error (.configuration "OIDC binding hash does not match its identity") := by
    intro d b hb hissuer
    have hother : (b.oidcIssuer,b.oidcSubject) ≠ (secondCut.issuer,secondCut.subject) := by
      intro hsame
      have hissuers := (Prod.mk.inj hsame).1
      rw [hissuer] at hissuers
      exact absurd hissuers (by decide)
    unfold Directory.resolveOrBind Directory.resolveBound
    rw [hb]
    dsimp only
    rw [if_pos hother]
    rfl
  obtain ⟨b, hb, hissuer, _⟩ := hbound.documents firstCut.issuer firstCut.subject _
    InMemoryIdentityStore.bind_bindings_self
  simp only [transcript, observed, hmemory, login_error (hdirectory _ b hb hissuer)] at hagree
  exact absurd (List.cons.inj hagree).1 (by decide)

end Invited

end Woodhouse.Identity
