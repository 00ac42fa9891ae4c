/-
VerityBackend.Backend.Tokens — signed tokens.

A JWT is modelled by what it says and by the secret it was signed with.
`jwt.verifyAsync(token, { secret })` accepts it when that secret is the
one given and the token has not expired; HMAC signatures are not forged.
`iat` and `exp` count seconds. A claim that is absent is the empty string, which the services treat alike.
-/
import VerityBackend.Backend.World

namespace VerityBackend

structure Jwt where
  secret : String
  typ : String
  sub : String
  fid : String
  jti : String
  role : Option UserRole
  iat : Nat
  exp : Nat
  deriving DecidableEq, Repr

/-- The environment of `AuthService`: both secrets and SHA-256 of a token's
text. -/
structure AuthConfig where
  accessSecret : String
  refreshSecret : String
  hashToken : Jwt → String

/-- `'15m'`, in seconds. -/
def ACCESS_TOKEN_TTL : Nat := 15 * 60

def REFRESH_TOKEN_TTL_DAYS : Nat := 30

/-- `jwt.signAsync` as `createRefreshToken` calls it at time `now`. -/
def AuthConfig.signRefreshToken (cfg : AuthConfig) (now : Nat) (userId : UserId)
    (familyId tokenId : String) : Jwt where
  secret := cfg.refreshSecret
  typ := "refresh"
  sub := userId
  fid := familyId
  jti := tokenId
  role := none
  iat := now / 1000
  exp := now / 1000 + REFRESH_TOKEN_TTL_DAYS * 24 * 60 * 60

/-- `jwt.signAsync` as `createAccessToken` calls it at time `now`. -/
def AuthConfig.signAccessToken (cfg : AuthConfig) (now : Nat) (userId : UserId)
    (role : UserRole) : Jwt where
  secret := cfg.accessSecret
  typ := "access"
  sub := userId
  fid := ""
  jti := ""
  role := some role
  iat := now / 1000
  exp := now / 1000 + ACCESS_TOKEN_TTL

/-- `jwt.verifyAsync`. -/
def Jwt.verifies (t : Jwt) (secret : String) (now : Nat) : Bool :=
  t.secret == secret && decide (now / 1000 < t.exp)

/-- `refreshExpiry`. -/
def refreshExpiry (now : Nat) : Nat := now + REFRESH_TOKEN_TTL_DAYS * 24 * 60 * 60 * 1000

/-- An access token and the refresh token issued with it. -/
structure IssuedTokens where
  accessToken : Jwt
  refreshToken : Jwt
  deriving DecidableEq, Repr

end VerityBackend
