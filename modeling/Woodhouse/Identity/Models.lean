import Mathlib.Logic.Function.Basic
import Woodhouse.Python.Numbers

namespace Woodhouse.Identity

/-- The authentication failures, with their safe texts. -/
inductive Exc where
  | invalidToken (message : String)
  | emailNotVerified (message : String)
  | userNotAllowed (message : String)
  | userDisabled (message : String)
  | identityMismatch (message : String)
  | configuration (message : String)
  | browserAuthentication (message : String)
  | valueError (message : String)
  | other (name : String)
  deriving DecidableEq

inductive UserStatus where
  | active
  | disabled
  deriving DecidableEq

structure VerifiedIdentity where
  issuer : String
  subject : String
  email : Option String := none
  emailVerified : Bool := false
  issuer_nonempty : issuer ≠ ""
  subject_nonempty : subject ≠ ""
  deriving DecidableEq

/-- The constructor's check of the claims. -/
def verifiedIdentity (issuer subject : String) (email : Option String := none)
    (emailVerified : Bool := false) : Except Exc VerifiedIdentity :=
  if h : issuer ≠ "" ∧ subject ≠ "" then
    .ok { issuer, subject, email, emailVerified, issuer_nonempty := h.1, subject_nonempty := h.2 }
  else .error (.valueError "Verified OIDC identity requires issuer and subject")

theorem verifiedIdentity_eq {issuer subject : String} {email : Option String} {emailVerified : Bool}
    {identity : VerifiedIdentity}
    (h : verifiedIdentity issuer subject email emailVerified = .ok identity) :
    identity.issuer = issuer ∧ identity.subject = subject := by
  unfold verifiedIdentity at h
  split at h
  · obtain rfl := Except.ok.inj h
    exact ⟨rfl, rfl⟩
  · cases h

structure AllowedUser where
  invitationEmail : String
  userId : String
  datasetId : String
  status : UserStatus
  oidcIssuer : Option String := none
  oidcSubject : Option String := none
  deriving DecidableEq

structure UserContext where
  userId : String
  datasetId : String
  oidcIssuer : String
  oidcSubject : String
  deriving DecidableEq

section Emails

def isSpace (c : Char) : Bool := Python.isSpace (Python.chr c)

/-- `s.strip()`. -/
def strip (s : String) : String :=
  String.ofList (Python.stripOf isSpace s.toList)

/-- The lookup key of an invitation. Python's `casefold` is left open, since the
store only needs every lookup to use the same one. -/
def normalizeEmail (casefold : String → String) (email : String) : Except Exc String :=
  let normalized := casefold (strip email)
  let localPart := normalized.toList.takeWhile (· ≠ '@')
  let rest := normalized.toList.dropWhile (· ≠ '@')
  let domain := rest.drop 1
  if rest = [] ∨ localPart = [] ∨ domain = [] ∨ '@' ∈ domain then
    .error (.valueError "A valid email address is required")
  else .ok normalized

/-- The invitation key of verified first-login claims. -/
def firstLoginInvitationEmail (casefold : String → String) (identity : VerifiedIdentity) :
    Except Exc String :=
  if !identity.emailVerified then
    .error (.emailNotVerified "Verified email is required for first login")
  else
    match identity.email with
    | none => .error (.userNotAllowed "No invitation email claim")
    | some email =>
      match normalizeEmail casefold email with
      | .ok normalized => .ok normalized
      | .error _ => .error (.invalidToken "OIDC token has an invalid email claim")

example : normalizeEmail id " ann@example.org\n" = .ok "ann@example.org" := by decide

end Emails

section Documents

/-- `allowed_users/{email}`. -/
structure AllowedUserDocument where
  userId : String
  datasetId : String
  status : UserStatus
  oidcIssuer : Option String
  oidcSubject : Option String
  deriving DecidableEq

/-- `oidc_identities/{sha256(issuer\0subject)}`. -/
structure IdentityDocument where
  allowlistEmail : String
  oidcIssuer : String
  oidcSubject : String
  userId : String
  deriving DecidableEq

/-- The collections of the identity store, by document id. -/
structure Directory where
  allowedUsers : String → Option AllowedUserDocument
  oidcIdentities : String → Option IdentityDocument

def emptyDirectory : Directory := { allowedUsers := fun _ => none, oidcIdentities := fun _ => none }

def recordFromData (email : String) (data : AllowedUserDocument) : Except Exc AllowedUser :=
  if data.userId = "" then .error (.configuration "Allowlist record has an invalid user ID")
  else if data.datasetId = "" then
    .error (.configuration "Allowlist record has an invalid dataset ID")
  else if data.oidcIssuer.isNone ≠ data.oidcSubject.isNone then
    .error (.configuration "Allowlist immutable identity is partially bound")
  else
    .ok { invitationEmail := email
          userId := data.userId
          datasetId := data.datasetId
          status := data.status
          oidcIssuer := data.oidcIssuer
          oidcSubject := data.oidcSubject }

theorem recordFromData_eq {email : String} {data : AllowedUserDocument} {user : AllowedUser}
    (h : recordFromData email data = .ok user) :
    user = { invitationEmail := email, userId := data.userId, datasetId := data.datasetId,
             status := data.status, oidcIssuer := data.oidcIssuer,
             oidcSubject := data.oidcSubject } := by
  unfold recordFromData at h
  split at h
  · cases h
  · split at h
    · cases h
    · split at h
      · cases h
      · exact (Except.ok.inj h).symm

def requireActive (user : AllowedUser) : Except Exc Unit :=
  if user.status ≠ .active then .error (.userDisabled "User is disabled") else .ok ()

def context (user : AllowedUser) (identity : VerifiedIdentity) : Except Exc UserContext :=
  match requireActive user with
  | .error e => .error e
  | .ok () =>
    if (user.oidcIssuer,user.oidcSubject) ≠ (some identity.issuer,some identity.subject) then
      .error (.identityMismatch "Immutable identity binding is inconsistent")
    else
      .ok { userId := user.userId
            datasetId := user.datasetId
            oidcIssuer := identity.issuer
            oidcSubject := identity.subject }

theorem requireActive_ok {user : AllowedUser} (h : requireActive user = .ok ()) :
    user.status = .active := by
  unfold requireActive at h
  split at h
  · cases h
  · rename_i hactive
    exact not_not.mp hactive

theorem context_eq {user : AllowedUser} {identity : VerifiedIdentity} {c : UserContext}
    (h : context user identity = .ok c) :
    user.status = .active ∧ user.oidcIssuer = some identity.issuer ∧
      user.oidcSubject = some identity.subject ∧
      c = { userId := user.userId, datasetId := user.datasetId, oidcIssuer := identity.issuer,
            oidcSubject := identity.subject } := by
  unfold context at h
  split at h
  · cases h
  · rename_i hactive
    split at h
    · cases h
    · rename_i hsame
      obtain ⟨hissuer, hsubject⟩ := Prod.mk.inj (not_not.mp hsame)
      exact ⟨requireActive_ok hactive, hissuer, hsubject, (Except.ok.inj h).symm⟩

end Documents

end Woodhouse.Identity
