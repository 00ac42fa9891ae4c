/-
VerityBackend.Auth.Service — refresh tokens (`auth/auth.service.ts`).

`createRefreshToken` only signs, so it is `AuthConfig.signRefreshToken` at
the time it is called; `refreshSession` keeps every check of the source
between the read of the row and the rotation transaction.
-/
import VerityBackend.Backend.Service

namespace VerityBackend.Auth

open Async

structure RefreshPayload where
  sub : String
  fid : String
  jti : String
  deriving DecidableEq, Repr

structure IssueOptions where
  familyId : Option String
  userAgent : Option String
  ipAddress : Option String
  role : Option UserRole
  deriving DecidableEq, Repr

section Functions

variable (cfg : AuthConfig)

/-- A token `verifyAsync` rejects and a token without the claims of a
refresh token are told apart by the message. -/
def verifyRefreshToken (token : Jwt) : Prog RefreshPayload := do
  let now ← host .now
  if !token.verifies cfg.refreshSecret now then
    Proc.fail (.unauthorized "Invalid or expired refresh token")
  else if token.typ ≠ "refresh" ∨ token.sub = "" ∨ token.fid = "" ∨ token.jti = "" then
    Proc.fail (.unauthorized "Invalid refresh token")
  else
    pure ⟨token.sub, token.fid, token.jti⟩

def getUserRole (userId : UserId) : Prog UserRole := do
  match ← prisma (.userFindUnique userId) with
  | none => Proc.fail (.unauthorized "User not found")
  | some user => pure user.role

def createAccessToken (userId : UserId) (role : Option UserRole) : Prog Jwt := do
  let resolvedRole ← match role with
    | some r => pure r
    | none => getUserRole userId
  let now ← host .now
  pure (cfg.signAccessToken now userId resolvedRole)

def issueTokens (userId : UserId) (options : IssueOptions) : Prog IssuedTokens := do
  let now ← host .now
  let familyId ← match options.familyId with
    | some familyId => pure familyId
    | none => host .randomUUID
  let refreshTokenId ← host .randomUUID
  let signedAt ← host .now
  let refreshToken := cfg.signRefreshToken signedAt userId familyId refreshTokenId
  prisma (.refreshTokenCreate
    { id := refreshTokenId
      userId := userId
      tokenHash := cfg.hashToken refreshToken
      familyId := familyId
      expiresAt := refreshExpiry now
      revokedAt := none
      replacedById := none
      userAgent := options.userAgent
      ipAddress := options.ipAddress
      lastUsedAt := some now
      createdAt := now })
  let accessToken ← createAccessToken cfg userId options.role
  pure ⟨accessToken, refreshToken⟩

/-- The revocation every rejecting branch of `refreshSession` makes before
it throws. -/
def revokeFamilyAndThrow (familyId : String) (now : Nat) (message : String) :
    Prog IssuedTokens := do
  let _ ← prisma (.refreshTokenRevokeFamily familyId now)
  Proc.fail (.unauthorized message)

/-- The rotation, and the `catch` around its transaction. -/
def rotate (payload : RefreshPayload) (stored : RefreshToken) (now : Nat)
    (userAgent ipAddress : Option String) : Prog IssuedTokens :=
  (prisma (.refreshTokenRotate cfg stored payload.sub payload.fid now userAgent ipAddress)).tryCatch
    fun error =>
      match error with
      | .refreshReuse => revokeFamilyAndThrow stored.familyId now "Refresh token already used"
      | _ => Proc.fail error

def refreshSession (refreshToken : Jwt) (userAgent ipAddress : Option String) :
    Prog IssuedTokens := do
  let payload ← verifyRefreshToken cfg refreshToken
  let now ← host .now
  let tokenHash := cfg.hashToken refreshToken
  match ← prisma (.refreshTokenFindUnique payload.jti) with
  | none => Proc.fail (.unauthorized "Invalid refresh token")
  | some stored =>
      if stored.userId ≠ payload.sub ∨ stored.familyId ≠ payload.fid then
        -- `if (stored?.familyId)`: an empty family is not revoked
        if stored.familyId ≠ "" then
          revokeFamilyAndThrow stored.familyId now "Invalid refresh token"
        else
          Proc.fail (.unauthorized "Invalid refresh token")
      else if stored.tokenHash ≠ tokenHash then
        revokeFamilyAndThrow stored.familyId now "Invalid refresh token"
      else if stored.revokedAt.isSome then
        revokeFamilyAndThrow stored.familyId now "Refresh token reused"
      else if stored.expiresAt ≤ now then do
        prisma (.refreshTokenRevoke stored.id now)
        Proc.fail (.unauthorized "Refresh token expired")
      else
        rotate cfg payload stored now userAgent ipAddress

def logoutAll (userId : UserId) : Prog Unit := do
  let now ← host .now
  let _ ← prisma (.refreshTokenRevokeUser userId now)
  pure ()

end Functions

/-! ## The service -/

/-- `signup` is `issueTokens` as `signupAnonymous` calls it, without a
family. -/
inductive AuthOp where
  | signup (userId : UserId) (userAgent ipAddress : Option String) (role : Option UserRole)
  | refreshSession (refreshToken : Jwt) (userAgent ipAddress : Option String)
  | logoutAll (userId : UserId)
  deriving DecidableEq, Repr

abbrev AuthOp.Ret : AuthOp → Type
  | .signup _ _ _ _ => IssuedTokens
  | .refreshSession _ _ _ => IssuedTokens
  | .logoutAll _ => Unit

def AuthOp.code (cfg : AuthConfig) : (o : AuthOp) → Prog o.Ret
  | .signup userId userAgent ipAddress role =>
      issueTokens cfg userId ⟨none, userAgent, ipAddress, role⟩
  | .refreshSession refreshToken userAgent ipAddress =>
      Auth.refreshSession cfg refreshToken userAgent ipAddress
  | .logoutAll userId => Auth.logoutAll userId

@[reducible] def authService (cfg : AuthConfig) : Service where
  Op := AuthOp
  Ret := AuthOp.Ret
  code := AuthOp.code cfg

end VerityBackend.Auth
