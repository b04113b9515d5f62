import Mathlib.Data.List.DropRight
import Mathlib.Data.Set.Function
import Woodhouse.Effects.Transcripts
import Woodhouse.Identity.Store

namespace Woodhouse.Identity
open Effects

/-- The in-memory store: records by normalized email, and the email each identity is bound to. -/
structure InMemoryIdentityStore where
  users : String → Option AllowedUser
  bindings : String × String → Option String

/-- `type(error).__name__`. -/
def Exc.className : Exc → String
  | .invalidToken _ => "InvalidTokenError"
  | .emailNotVerified _ => "EmailNotVerifiedError"
  | .userNotAllowed _ => "UserNotAllowedError"
  | .userDisabled _ => "UserDisabledError"
  | .identityMismatch _ => "IdentityMismatchError"
  | .configuration _ => "ConfigurationError"
  | .browserAuthentication _ => "BrowserAuthenticationError"
  | .valueError _ => "ValueError"
  | .other name => name

namespace InMemoryIdentityStore
variable (casefold : String → String) (m : InMemoryIdentityStore)

def requireCompleteBinding (user : AllowedUser) : Except Exc Unit :=
  if user.oidcIssuer.isNone ≠ user.oidcSubject.isNone then
    .error (.configuration "Allowlist immutable identity is partially bound")
  else .ok ()

/-- The fake's own `_context`. -/
def context (user : AllowedUser) (identity : VerifiedIdentity) : Except Exc UserContext :=
  match requireCompleteBinding user with
  | .error e => .error e
  | .ok () =>
    match requireActive user with
    | .error e => .error e
    | .ok () =>
      if user.userId = "" ∨ user.datasetId = "" then
        .error (.configuration "Allowlist record is missing tenant configuration")
      else if (user.oidcIssuer,user.oidcSubject) ≠ (some identity.issuer,some identity.subject) then
        .error (.identityMismatch "Immutable identity binding is inconsistent")
      else
        .ok { userId := user.userId
              datasetId := user.datasetId
              oidcIssuer := identity.issuer
              oidcSubject := identity.subject }

/-- `self._users[email] = user` and `self._bindings[binding_key] = email`. -/
def bind (email : String) (user : AllowedUser) (identity : VerifiedIdentity) :
    InMemoryIdentityStore :=
  { users := Function.update m.users email (some user)
    bindings := Function.update m.bindings (identity.issuer,identity.subject) (some email) }

section
variable {m} {email : String} {user : AllowedUser} {identity : VerifiedIdentity}

@[simp] theorem bind_users_self : (m.bind email user identity).users email = some user :=
  Function.update_self ..

theorem bind_users_other {email' : String} (h : email' ≠ email) :
    (m.bind email user identity).users email' = m.users email' := Function.update_of_ne h ..

@[simp] theorem bind_bindings_self :
    (m.bind email user identity).bindings (identity.issuer,identity.subject) = some email :=
  Function.update_self ..

theorem bind_bindings_other {key : String × String} (h : key ≠ (identity.issuer,identity.subject)) :
    (m.bind email user identity).bindings key = m.bindings key := Function.update_of_ne h ..

end

/-- A call that raises after it has bound keeps what it wrote. -/
def resolveOrBind (identity : VerifiedIdentity) :
    Except Exc UserContext × InMemoryIdentityStore :=
  match m.bindings (identity.issuer,identity.subject) with
  | some boundEmail =>
    match m.users boundEmail with
    | none => (.error (.other "KeyError"),m)
    | some user => (context user identity,m)
  | none =>
    match firstLoginInvitationEmail casefold identity with
    | .error e => (.error e,m)
    | .ok email =>
      match m.users email with
      | none => (.error (.userNotAllowed "No active invitation"),m)
      | some user =>
        match requireCompleteBinding user with
        | .error e => (.error e,m)
        | .ok () =>
          match requireActive user with
          | .error e => (.error e,m)
          | .ok () =>
            if user.oidcIssuer ≠ none ∨ user.oidcSubject ≠ none then
              if (user.oidcIssuer,user.oidcSubject) ≠
                  (some identity.issuer,some identity.subject) then
                (.error (.identityMismatch "Invitation is bound to another identity"),m)
              else (context user identity,m)
            else
              let user := { user with oidcIssuer := some identity.issuer
                                      oidcSubject := some identity.subject }
              (context user identity,m.bind email user identity)

end InMemoryIdentityStore

section Keys

/-- Python's `casefold` folds a folded text to itself and adds no outer whitespace. -/
structure Folding (casefold : String → String) : Prop where
  folded : ∀ s, casefold (casefold s) = casefold s
  stripped : ∀ s, strip (casefold (strip s)) = casefold (strip s)

variable {casefold : String → String}

theorem normalizeEmail_ok {email key : String} (h : normalizeEmail casefold email = .ok key) :
    key = casefold (strip email) := by
  unfold normalizeEmail at h
  dsimp only at h
  split at h
  · cases h
  · exact (Except.ok.inj h).symm

/-- A normalized email is its own key. -/
theorem normalizeEmail_normalized (folding : Folding casefold) {email key : String}
    (h : normalizeEmail casefold email = .ok key) : normalizeEmail casefold key = .ok key := by
  have hkey := normalizeEmail_ok h
  have hsame : casefold (strip key) = casefold (strip email) := by
    rw [hkey, folding.stripped, folding.folded]
  rw [← h]
  unfold normalizeEmail
  rw [hsame]

theorem firstLogin_normalized (folding : Folding casefold) {identity : VerifiedIdentity}
    {email : String} (h : firstLoginInvitationEmail casefold identity = .ok email) :
    normalizeEmail casefold email = .ok email := by
  unfold firstLoginInvitationEmail at h
  split at h
  · cases h
  · split at h
    · cases h
    · split at h
      · rename_i hkey
        obtain rfl := Except.ok.inj h
        exact normalizeEmail_normalized folding hkey
      · cases h

/-- Nothing is left to strip once both ends are stripped: the first strip's head is no space. -/
theorem strip_strip (s : String) : strip (strip s) = strip s := by
  have hhead : ∀ l : List Char, ((l.dropWhile isSpace).rdropWhile isSpace).dropWhile isSpace =
      (l.dropWhile isSpace).rdropWhile isSpace := by
    intro l
    rw [List.dropWhile_eq_self_iff]
    intro hlong
    have hstripped := List.rdropWhile_prefix isSpace (l := l.dropWhile isSpace)
    have hlong' := Nat.lt_of_lt_of_le hlong hstripped.length_le
    have hfirst := List.dropWhile_get_zero_not isSpace l hlong'
    rw [List.get_eq_getElem] at hfirst
    simpa [hstripped.getElem] using hfirst
  have hlist : ∀ l : List Char, ((l.dropWhile isSpace).reverse.dropWhile isSpace).reverse =
      (l.dropWhile isSpace).rdropWhile isSpace := fun _ => rfl
  simp only [strip, Python.stripOf, String.toList_ofList, hlist, hhead]
  exact congrArg String.ofList (List.rdropWhile_idempotent isSpace _)

end Keys

end Woodhouse.Identity
