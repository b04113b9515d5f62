import Woodhouse.Identity.Models

namespace Woodhouse.Identity

variable (sha256Hex casefold : String → String)

def identityDocumentId (issuer subject : String) : String :=
  sha256Hex (issuer ++ "\x00" ++ subject)

namespace Directory
variable (d : Directory)

def setUser (id : String) (data : AllowedUserDocument) : Directory :=
  { d with allowedUsers := Function.update d.allowedUsers id (some data) }

def createIdentity (key : String) (data : IdentityDocument) : Directory :=
  { d with oidcIdentities := Function.update d.oidcIdentities key (some data) }

def deleteIdentity (key : String) : Directory :=
  { d with oidcIdentities := Function.update d.oidcIdentities key none }

@[simp] theorem setUser_identities (id : String) (data : AllowedUserDocument) :
    (d.setUser id data).oidcIdentities = d.oidcIdentities := rfl

@[simp] theorem setUser_self (id : String) (data : AllowedUserDocument) :
    (d.setUser id data).allowedUsers id = some data := Function.update_self ..

theorem setUser_other {id id' : String} (h : id' ≠ id) (data : AllowedUserDocument) :
    (d.setUser id data).allowedUsers id' = d.allowedUsers id' := Function.update_of_ne h ..

/-- A record that is there after a write is the written one or was there before. -/
theorem setUser_eq_some {d : Directory} {id id' : String} {data data' : AllowedUserDocument}
    (h : (d.setUser id data).allowedUsers id' = some data') :
    id' = id ∧ data' = data ∨ id' ≠ id ∧ d.allowedUsers id' = some data' := by
  by_cases hsame : id' = id
  · subst hsame
    rw [setUser_self] at h
    exact .inl ⟨rfl, (Option.some.inj h).symm⟩
  · rw [setUser_other _ hsame] at h
    exact .inr ⟨hsame, h⟩

@[simp] theorem createIdentity_users (key : String) (data : IdentityDocument) :
    (d.createIdentity key data).allowedUsers = d.allowedUsers := rfl

@[simp] theorem createIdentity_self (key : String) (data : IdentityDocument) :
    (d.createIdentity key data).oidcIdentities key = some data := Function.update_self ..

theorem createIdentity_other {key key' : String} (h : key' ≠ key) (data : IdentityDocument) :
    (d.createIdentity key data).oidcIdentities key' = d.oidcIdentities key' :=
  Function.update_of_ne h ..

@[simp] theorem deleteIdentity_users (key : String) :
    (d.deleteIdentity key).allowedUsers = d.allowedUsers := rfl

@[simp] theorem deleteIdentity_self (key : String) :
    (d.deleteIdentity key).oidcIdentities key = none := Function.update_self ..

theorem deleteIdentity_other {key key' : String} (h : key' ≠ key) :
    (d.deleteIdentity key).oidcIdentities key' = d.oidcIdentities key' := Function.update_of_ne h ..

/-- The snapshot at `store.allowed_user(email)`, which normalizes once more. -/
def allowedUser (email : String) : Except Exc (String × Option AllowedUserDocument) :=
  match normalizeEmail casefold email with
  | .error e => .error e
  | .ok id => .ok (id,d.allowedUsers id)

/-- A login through an existing identity document. -/
def resolveBound (identity : VerifiedIdentity) (binding : IdentityDocument) :
    Except Exc UserContext :=
  if (binding.oidcIssuer,binding.oidcSubject) ≠ (identity.issuer,identity.subject) then
    .error (.configuration "OIDC binding hash does not match its identity")
  else
    match d.allowedUser casefold binding.allowlistEmail with
    | .error e => .error e
    | .ok (_,none) =>
      .error (.configuration "OIDC binding points to a missing allowlist record")
    | .ok (_,some data) =>
      match recordFromData binding.allowlistEmail data with
      | .error e => .error e
      | .ok user =>
        if binding.userId ≠ user.userId then
          .error (.configuration "OIDC binding user does not match its allowlist record")
        else context user identity

/-- The record of a first login, and the directory with its identity on it. -/
def bindRecord (id : String) (data : AllowedUserDocument) (user : AllowedUser)
    (identity : VerifiedIdentity) : Except Exc (AllowedUser × Directory) :=
  if user.oidcIssuer ≠ none ∨ user.oidcSubject ≠ none then
    if (user.oidcIssuer,user.oidcSubject) ≠ (some identity.issuer,some identity.subject) then
      .error (.identityMismatch "Invitation is bound to another identity")
    else .ok (user,d)
  else
    .ok ({ user with oidcIssuer := some identity.issuer, oidcSubject := some identity.subject },
      d.setUser id
        { data with oidcIssuer := some identity.issuer, oidcSubject := some identity.subject })

/-- A login without an identity document: the verified email finds the invitation. -/
def bindFirst (identity : VerifiedIdentity) : Except Exc (UserContext × Directory) :=
  match firstLoginInvitationEmail casefold identity with
  | .error e => .error e
  | .ok email =>
    match d.allowedUser casefold email with
    | .error e => .error e
    | .ok (_,none) => .error (.userNotAllowed "No active invitation")
    | .ok (id,some data) =>
      match recordFromData email data with
      | .error e => .error e
      | .ok user =>
        match requireActive user with
        | .error e => .error e
        | .ok () =>
          match d.bindRecord id data user identity with
          | .error e => .error e
          | .ok (user,d') =>
            match context user identity with
            | .error e => .error e
            | .ok c =>
              .ok (c,d'.createIdentity (identityDocumentId sha256Hex identity.issuer identity.subject)
                { allowlistEmail := email, oidcIssuer := identity.issuer,
                  oidcSubject := identity.subject, userId := user.userId })

def resolveOrBind (identity : VerifiedIdentity) : Except Exc (UserContext × Directory) :=
  match d.oidcIdentities (identityDocumentId sha256Hex identity.issuer identity.subject) with
  | some binding => (d.resolveBound casefold identity binding).map (fun c => (c,d))
  | none => d.bindFirst sha256Hex casefold identity

/-- `newUserId` and `newDatasetId` are what the factories give a new record. -/
def ensureInvitation (email newUserId newDatasetId : String) :
    Except Exc (AllowedUser × Directory) :=
  match normalizeEmail casefold email with
  | .error e => .error e
  | .ok email =>
    match d.allowedUser casefold email with
    | .error e => .error e
    | .ok (_,some data) => (recordFromData email data).map (fun user => (user,d))
    | .ok (id,none) =>
      .ok ({ invitationEmail := email, userId := newUserId, datasetId := newDatasetId,
             status := .disabled },
        d.setUser id
          { userId := newUserId, datasetId := newDatasetId, status := .disabled,
            oidcIssuer := none, oidcSubject := none })

def setStatus (email : String) (status : UserStatus) : Except Exc (AllowedUser × Directory) :=
  match normalizeEmail casefold email with
  | .error e => .error e
  | .ok email =>
    match d.allowedUser casefold email with
    | .error e => .error e
    | .ok (_,none) => .error (.userNotAllowed "Allowlist record does not exist")
    | .ok (id,some data) =>
      match recordFromData email data with
      | .error e => .error e
      | .ok user => .ok ({ user with status },d.setUser id { data with status })

def activate (email : String) : Except Exc (AllowedUser × Directory) :=
  d.setStatus casefold email .active

def disable (email : String) : Except Exc (AllowedUser × Directory) :=
  d.setStatus casefold email .disabled

/-- The directory without the identity document of a user. -/
def withoutIdentity (user : AllowedUser) : Directory :=
  match user.oidcIssuer,user.oidcSubject with
  | some issuer,some subject => d.deleteIdentity (identityDocumentId sha256Hex issuer subject)
  | _,_ => d

def resetIdentity (email expectedUserId : String) : Except Exc (AllowedUser × Directory) :=
  match normalizeEmail casefold email with
  | .error e => .error e
  | .ok email =>
    match d.allowedUser casefold email with
    | .error e => .error e
    | .ok (_,none) => .error (.userNotAllowed "Allowlist record does not exist")
    | .ok (id,some data) =>
      match recordFromData email data with
      | .error e => .error e
      | .ok user =>
        if user.userId ≠ expectedUserId then
          .error (.valueError "Confirmed user ID does not match the allowlist record")
        else
          .ok ({ user with oidcIssuer := none, oidcSubject := none },
            (d.withoutIdentity sha256Hex user).setUser id
              { data with oidcIssuer := none, oidcSubject := none })

end Directory

/-- The transactions of the login path and of the administrators. -/
inductive Operation where
  | resolveOrBind (identity : VerifiedIdentity)
  | ensureInvitation (email newUserId newDatasetId : String)
  | activate (email : String)
  | disable (email : String)
  | resetIdentity (email expectedUserId : String)

/-- The directory an operation commits. -/
def Operation.run (d : Directory) : Operation → Except Exc Directory
  | .resolveOrBind identity => (d.resolveOrBind sha256Hex casefold identity).map Prod.snd
  | .ensureInvitation email newUserId newDatasetId =>
    (d.ensureInvitation casefold email newUserId newDatasetId).map Prod.snd
  | .activate email => (d.activate casefold email).map Prod.snd
  | .disable email => (d.disable casefold email).map Prod.snd
  | .resetIdentity email expectedUserId =>
    (d.resetIdentity sha256Hex casefold email expectedUserId).map Prod.snd

/-- A transaction that raises leaves every document as it was. -/
def Operation.apply (d : Directory) (operation : Operation) : Directory :=
  match operation.run sha256Hex casefold d with
  | .ok d' => d'
  | .error _ => d

def directoryAfter (operations : List Operation) : Directory :=
  operations.foldl (Operation.apply sha256Hex casefold) emptyDirectory

@[simp] theorem directoryAfter_nil : directoryAfter sha256Hex casefold [] = emptyDirectory := rfl

@[simp] theorem directoryAfter_snoc (operations : List Operation) (operation : Operation) :
    directoryAfter sha256Hex casefold (operations ++ [operation]) =
      operation.apply sha256Hex casefold (directoryAfter sha256Hex casefold operations) := by
  simp [directoryAfter]

end Woodhouse.Identity
