/-
VerityBackend.Auth.TokenKinds — who accepts which kind of token
(`common/security-config.ts`, `auth/jwt.strategy.ts` and the gateways).

An access token and a refresh token are told apart by the secret they are
signed with and by `typ`. `verifyRefreshToken` and `JwtStrategy` look at
both. The gateways look at the secret only, and the two secrets are one
where both fall back to `JWT_SECRET`: there a refresh token opens a socket
(`kindsApart_iff`).
-/
import VerityBackend.Auth.Service

namespace VerityBackend.Auth

open Async

/-! ## The secrets -/

/-- The variables of `process.env` the secrets are read from. -/
structure SecretEnv where
  NODE_ENV : Option String
  ALLOW_INSECURE_DEV_SECRETS : Option String
  JWT_SECRET : Option String
  JWT_ACCESS_SECRET : Option String
  JWT_REFRESH_SECRET : Option String
  deriving DecidableEq, Repr

def DEV_ACCESS_SECRET : String := "dev_access_secret"

def DEV_REFRESH_SECRET : String := "dev_refresh_secret"

def readEnvSecret (value : Option String) : Option String :=
  match value with
  | none => none
  | some value =>
      let trimmed := jsTrim value
      if 0 < jsLength trimmed then some trimmed else none

def SecretEnv.isProductionEnv (env : SecretEnv) : Bool := env.NODE_ENV == some "production"

def parseBooleanEnv (value : Option String) : Bool :=
  match value with
  | none => false
  | some value =>
      let normalized := String.ofList ((jsTrim value).toList.flatMap jsLower)
      normalized == "1" || normalized == "true" || normalized == "yes" || normalized == "on"

def SecretEnv.allowInsecureDevSecrets (env : SecretEnv) : Bool :=
  !env.isProductionEnv && parseBooleanEnv env.ALLOW_INSECURE_DEV_SECRETS

def missingSecretError (secretName : String) : String :=
  "Missing " ++ secretName ++ " (or JWT_SECRET). Set " ++ secretName ++ " or JWT_SECRET. " ++
    "To use insecure dev fallback secrets, set ALLOW_INSECURE_DEV_SECRETS=true in non-production only."

/-- The variable of one kind of token, then `JWT_SECRET`, then the secret of
a development environment. -/
def SecretEnv.resolve (env : SecretEnv) (value : Option String) (devSecret secretName : String) :
    Except String String :=
  match (readEnvSecret value).orElse fun _ => readEnvSecret env.JWT_SECRET with
  | some secret => .ok secret
  | none =>
      if env.allowInsecureDevSecrets then .ok devSecret
      else .error (missingSecretError secretName)

def getAccessTokenSecret (env : SecretEnv) : Except String String :=
  env.resolve env.JWT_ACCESS_SECRET DEV_ACCESS_SECRET "JWT_ACCESS_SECRET"

def getRefreshTokenSecret (env : SecretEnv) : Except String String :=
  env.resolve env.JWT_REFRESH_SECRET DEV_REFRESH_SECRET "JWT_REFRESH_SECRET"

/-! ## The verifiers of access tokens -/

/-- The user of a request that is let through. -/
structure RequestUser where
  sub : String
  typ : String
  role : UserRole
  deriving DecidableEq, Repr

/-- `JwtStrategy.validate`. -/
def validate (payload : Jwt) : Except Err RequestUser :=
  if payload.sub = "" ∨ (payload.typ ≠ "" ∧ payload.typ ≠ "access") then
    .error (.unauthorized "Invalid access token")
  else
    .ok ⟨payload.sub, payload.typ, if payload.role = some .ADMIN then .ADMIN else .USER⟩

/-- A request with this token behind `Bearer `: Passport verifies the
signature with the secret the strategy was constructed with, then asks
`validate`. -/
def authenticate (env : SecretEnv) (now : Nat) (token : Jwt) : Except Err RequestUser :=
  match getAccessTokenSecret env with
  | .error _ => .error (.unauthorized "Unauthorized")
  | .ok secret =>
      if token.verifies secret now then validate token
      else .error (.unauthorized "Unauthorized")

/-- `client.handshake`: the token behind `Bearer ` in the authorization
header, and `auth.token`. -/
structure Handshake where
  authorization : Option Jwt
  authToken : Option Jwt
  deriving DecidableEq, Repr

def extractToken (client : Handshake) : Option Jwt :=
  client.authorization.orElse fun _ => client.authToken

/-- What becomes of a socket. -/
inductive Connection where
  | disconnected
  | joined (room : UserId)
  deriving DecidableEq, Repr

/-- `handleConnection`, which the three gateways have in common. -/
def handleConnection (env : SecretEnv) (now : Nat) (client : Handshake) : Connection :=
  match extractToken client with
  | none => .disconnected
  | some token =>
      match getAccessTokenSecret env with
      | .error _ => .disconnected
      | .ok secret =>
          if !token.verifies secret now then .disconnected
          else if token.sub = "" then .disconnected
          else .joined token.sub

def QueueGateway.handleConnection (env : SecretEnv) (now : Nat) (client : Handshake) : Connection :=
  Auth.handleConnection env now client

def ChatGateway.handleConnection (env : SecretEnv) (now : Nat) (client : Handshake) : Connection :=
  Auth.handleConnection env now client

def VideoGateway.handleConnection (env : SecretEnv) (now : Nat) (client : Handshake) : Connection :=
  Auth.handleConnection env now client

/-! ## Tokens for the wrong verifier -/

/-- The tokens are issued at `w` and shown at `w'`. -/
structure KindsApart (env : SecretEnv) (cfg : AuthConfig) (userId : UserId)
    (familyId tokenId : String) (role : Option UserRole) (w w' : World) : Prop where
  strategy : ∃ err,
    authenticate env w'.clock (cfg.signRefreshToken w.clock userId familyId tokenId) = .error err
  queue : ∀ client,
    extractToken client = some (cfg.signRefreshToken w.clock userId familyId tokenId) →
      QueueGateway.handleConnection env w'.clock client = .disconnected
  chat : ∀ client,
    extractToken client = some (cfg.signRefreshToken w.clock userId familyId tokenId) →
      ChatGateway.handleConnection env w'.clock client = .disconnected
  video : ∀ client,
    extractToken client = some (cfg.signRefreshToken w.clock userId familyId tokenId) →
      VideoGateway.handleConnection env w'.clock client = .disconnected
  refresh : ∀ token, ((createAccessToken cfg userId role).run Cmd.exec w).1 = .ok token →
    ∃ err, ((verifyRefreshToken cfg token).run Cmd.exec w').1 = .error err

section Kinds

variable {env : SecretEnv} {cfg : AuthConfig} {userId : UserId} {familyId tokenId : String}
  {role : Option UserRole} {w w' : World}

/-- `validate` asks for the kind whatever the secret. -/
theorem authenticate_refreshToken (env : SecretEnv) (cfg : AuthConfig) (userId : UserId)
    (familyId tokenId : String) (signedAt now : Nat) :
    ∃ err, authenticate env now (cfg.signRefreshToken signedAt userId familyId tokenId) =
      .error err := by
  have hvalidate : validate (cfg.signRefreshToken signedAt userId familyId tokenId) =
      .error (.unauthorized "Invalid access token") := by
    unfold validate
    exact if_pos (.inr ⟨by simp [AuthConfig.signRefreshToken], by simp [AuthConfig.signRefreshToken]⟩)
  unfold authenticate
  split
  · exact ⟨_, rfl⟩
  · split
    · exact ⟨_, hvalidate⟩
    · exact ⟨_, rfl⟩

/-- An access token is none of the tokens `verifyRefreshToken` returns a
payload for. -/
theorem verifyRefreshToken_access {token : Jwt} (h : token.typ = "access") (w : World) :
    ∃ err, ((verifyRefreshToken cfg token).run Cmd.exec w).1 = .error err := by
  have htyp : token.typ ≠ "refresh" := by
    rw [h]
    decide
  by_cases hv : token.verifies cfg.refreshSecret w.clock
  · refine ⟨.unauthorized "Invalid refresh token", ?_⟩
    simp [verifyRefreshToken, Proc.run_bind, Proc.fail, Cmd.exec, HostCmd.exec, hv, htyp]
  · refine ⟨.unauthorized "Invalid or expired refresh token", ?_⟩
    simp [verifyRefreshToken, Proc.run_bind, Proc.fail, Cmd.exec, HostCmd.exec, hv]

theorem createAccessToken_typ {token : Jwt}
    (h : ((createAccessToken cfg userId role).run Cmd.exec w).1 = .ok token) :
    token.typ = "access" := by
  cases role with
  | some role =>
      cases h
      rfl
  | none =>
      have hsigned : ∀ (resolvedRole : UserRole) (w : World),
          (((host .now).bind fun now => pure (cfg.signAccessToken now userId resolvedRole) :
            Prog Jwt).run Cmd.exec w).1 = .ok token → token.typ = "access" := by
        intro resolvedRole w h
        cases h
        rfl
      cases hu : w.db.users userId with
      | none => simp [createAccessToken, getUserRole, Proc.run_bind, Proc.fail, Cmd.exec, DbCmd.exec, hu] at h
      | some user =>
          refine hsigned user.role w ?_
          simpa [createAccessToken, getUserRole, Proc.run_bind, Cmd.exec, DbCmd.exec, hu] using h

/-- A gateway lets a refresh token in where its secret is that of the access
tokens. -/
theorem handleConnection_refreshToken {client : Handshake} {access : String}
    (hAccess : getAccessTokenSecret env = .ok access) (signedAt now : Nat)
    (hclient : extractToken client =
      some (cfg.signRefreshToken signedAt userId familyId tokenId)) :
    handleConnection env now client = .disconnected ↔
      access ≠ cfg.refreshSecret ∨ userId = "" ∨
        signedAt / 1000 + REFRESH_TOKEN_TTL_DAYS * 24 * 60 * 60 ≤ now / 1000 := by
  have hverifies : (cfg.signRefreshToken signedAt userId familyId tokenId).verifies access now =
      true ↔ cfg.refreshSecret = access ∧
        now / 1000 < signedAt / 1000 + REFRESH_TOKEN_TTL_DAYS * 24 * 60 * 60 := by
    unfold Jwt.verifies
    rw [Bool.and_eq_true, beq_iff_eq, decide_eq_true_iff]
    rfl
  have hsub : (cfg.signRefreshToken signedAt userId familyId tokenId).sub = userId := rfl
  unfold handleConnection
  rw [hclient, hAccess]
  simp only [hsub, Bool.not_eq_true']
  by_cases hv : (cfg.signRefreshToken signedAt userId familyId tokenId).verifies access now = true
  · obtain ⟨hsecret, hexp⟩ := hverifies.mp hv
    have hopen : ¬(access ≠ cfg.refreshSecret ∨
        signedAt / 1000 + REFRESH_TOKEN_TTL_DAYS * 24 * 60 * 60 ≤ now / 1000) := by
      rintro (h | h)
      · exact h hsecret.symm
      · omega
    by_cases hu : userId = ""
    · simp [hu]
    · simp only [hv, hu, if_false, false_or, reduceCtorEq, false_iff, Bool.true_eq_false]
      exact hopen
  · rw [if_pos (Bool.eq_false_iff.mpr hv)]
    refine iff_of_true rfl ?_
    by_cases hsecret : cfg.refreshSecret = access
    · exact .inr (.inr (Nat.le_of_not_lt fun hexp => hv (hverifies.mpr ⟨hsecret, hexp⟩)))
    · exact .inl (Ne.symm hsecret)

/-- The kinds are told apart everywhere if and only if the secrets are
different, or the refresh token is of no use to anybody. -/
theorem kindsApart_iff (hAccess : getAccessTokenSecret env = .ok cfg.accessSecret)
    (hRefresh : getRefreshTokenSecret env = .ok cfg.refreshSecret) :
    KindsApart env cfg userId familyId tokenId role w w' ↔
      getAccessTokenSecret env ≠ getRefreshTokenSecret env ∨ userId = "" ∨
        w.clock / 1000 + REFRESH_TOKEN_TTL_DAYS * 24 * 60 * 60 ≤ w'.clock / 1000 := by
  have hsecrets : getAccessTokenSecret env ≠ getRefreshTokenSecret env ↔
      cfg.accessSecret ≠ cfg.refreshSecret := by
    rw [hAccess, hRefresh]
    simp
  rw [hsecrets]
  constructor
  · intro h
    let client : Handshake :=
      ⟨none, some (cfg.signRefreshToken w.clock userId familyId tokenId)⟩
    exact (handleConnection_refreshToken hAccess w.clock w'.clock rfl).mp (h.queue client rfl)
  · intro h
    have hgateway : ∀ client,
        extractToken client = some (cfg.signRefreshToken w.clock userId familyId tokenId) →
          handleConnection env w'.clock client = .disconnected := fun client hclient =>
      (handleConnection_refreshToken hAccess w.clock w'.clock hclient).mpr h
    exact {
      strategy := authenticate_refreshToken env cfg userId familyId tokenId w.clock w'.clock
      queue := hgateway
      chat := hgateway
      video := hgateway
      refresh := fun token htoken => verifyRefreshToken_access (createAccessToken_typ htoken) w' }

/-- The secrets `JWT_SECRET` alone gives. -/
def sharedSecret (secret : String) : SecretEnv where
  NODE_ENV := some "production"
  ALLOW_INSECURE_DEV_SECRETS := none
  JWT_SECRET := some secret
  JWT_ACCESS_SECRET := none
  JWT_REFRESH_SECRET := none

/-- The secrets where both kinds have their own. -/
def ownSecrets (access refresh : String) : SecretEnv where
  NODE_ENV := some "production"
  ALLOW_INSECURE_DEV_SECRETS := none
  JWT_SECRET := none
  JWT_ACCESS_SECRET := some access
  JWT_REFRESH_SECRET := some refresh

theorem kindsApart_iff_ownSecrets :
    getAccessTokenSecret (ownSecrets "a" "r") = .ok "a" ∧
      getRefreshTokenSecret (ownSecrets "a" "r") = .ok "r" ∧
      (KindsApart (ownSecrets "a" "r") ⟨"a", "r", fun t => t.jti⟩ "ann" "f" "t" none .empty .empty ↔
        getAccessTokenSecret (ownSecrets "a" "r") ≠ getRefreshTokenSecret (ownSecrets "a" "r") ∨
          "ann" = "" ∨ World.empty.clock / 1000 + REFRESH_TOKEN_TTL_DAYS * 24 * 60 * 60 ≤
            World.empty.clock / 1000) :=
  ⟨by decide +kernel, by decide +kernel, kindsApart_iff (by decide +kernel) (by decide +kernel)⟩

/-- With `JWT_SECRET` alone, a refresh token opens a socket of the queue. -/
theorem refreshToken_opens_socket :
    ¬∀ (env : SecretEnv) (cfg : AuthConfig) (userId : UserId) (familyId tokenId : String)
        (role : Option UserRole) (w w' : World),
      getAccessTokenSecret env = .ok cfg.accessSecret →
        getRefreshTokenSecret env = .ok cfg.refreshSecret →
          KindsApart env cfg userId familyId tokenId role w w' := by
  intro h
  let cfg : AuthConfig := ⟨"s", "s", fun t => t.jti⟩
  have hAccess : getAccessTokenSecret (sharedSecret "s") = .ok cfg.accessSecret := by decide +kernel
  have hapart := h (sharedSecret "s") cfg "ann" "f" "t" none .empty .empty hAccess (by decide +kernel)
  have hclosed := hapart.queue ⟨none, some (cfg.signRefreshToken 0 "ann" "f" "t")⟩ rfl
  have hjoined : handleConnection (sharedSecret "s") 0
      ⟨none, some (cfg.signRefreshToken 0 "ann" "f" "t")⟩ = .joined "ann" := by
    decide +kernel
  rw [QueueGateway.handleConnection, World.empty, hjoined] at hclosed
  cases hclosed

end Kinds

end VerityBackend.Auth
