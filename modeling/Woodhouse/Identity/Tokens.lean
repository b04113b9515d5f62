import Woodhouse.Identity.Models

namespace Woodhouse.Identity

/-- A claim of a decoded token, as far as its readers tell values apart. -/
inductive Claim where
  | absent
  | null
  | str (s : String)
  | bool (b : Bool)
  | strings (values : List String)
  | other
  deriving DecidableEq

/-- `claims.get(name)`. -/
abbrev Claims := String → Claim

def emailOf (claims : Claims) : Except Exc (Option String) :=
  match claims "email" with
  | .absent | .null => .ok none
  | .str email => .ok (some email)
  | _ => .error (.invalidToken "OIDC email claim is invalid")

def emailVerifiedOf (claims : Claims) : Except Exc Bool :=
  match claims "email_verified" with
  | .absent => .ok false
  | .bool verified => .ok verified
  | _ => .error (.invalidToken "OIDC email verification claim is invalid")

def subjectOf (claims : Claims) : Except Exc String :=
  match claims "sub" with
  | .str subject =>
    if subject = "" then .error (.invalidToken "OIDC subject is missing") else .ok subject
  | _ => .error (.invalidToken "OIDC subject is missing")

/-- `_identity`. -/
def identityOf (expectedIssuer : String) (claims : Claims) : Except Exc VerifiedIdentity := do
  if claims "iss" ≠ .str expectedIssuer then
    .error (.invalidToken "OIDC issuer is not trusted")
  else
    let subject ← subjectOf claims
    let email ← emailOf claims
    let emailVerified ← emailVerifiedOf claims
    verifiedIdentity expectedIssuer subject email emailVerified

/-- `s.split()`. -/
def splitWords (s : String) : List String :=
  (Python.wordsOf isSpace s.toList).map String.ofList

def scopes (claims : Claims) : Except Exc (List String) := do
  let scope ← match claims "scope" with
    | .absent => .ok ""
    | .str scope => .ok scope
    | _ => .error (Exc.invalidToken "OIDC scope claim is invalid")
  let permissions ← match claims "permissions" with
    | .absent => .ok []
    | .strings values => .ok values
    | _ => .error (Exc.invalidToken "OIDC permissions claim is invalid")
  return splitWords scope ++ permissions

/-- `OIDCAccessTokenVerifier.verify`, behind the decoder. -/
def accessTokenIdentity (issuer : String) (requiredScopes : List String) (claims : Claims) :
    Except Exc VerifiedIdentity := do
  let granted ← scopes claims
  if ¬ requiredScopes ⊆ granted then
    .error (.invalidToken "OIDC token is missing required scopes")
  else identityOf issuer claims

/-- `OIDCIDTokenVerifier.verify`, behind the decoder. -/
def idTokenIdentity (issuer nonce : String) (claims : Claims) : Except Exc VerifiedIdentity :=
  if claims "nonce" ≠ .str nonce then
    .error (.invalidToken "OIDC ID token nonce does not match")
  else identityOf issuer claims

example : splitWords " openid  mcp:access" = ["openid","mcp:access"] := by decide

end Woodhouse.Identity
