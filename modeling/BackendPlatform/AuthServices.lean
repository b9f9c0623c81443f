import BackendPlatform.AuthRepositories

/-!
# Services of the authentication service

Tokens, passwords, audit trail, brute force protection, refresh rotation,
second factors, password reset and the sign-in flows, statement by statement.
An attribute change is written where the session flushes it.
-/

set_option autoImplicit false

namespace BackendPlatform.AuthServices

open ProgramTrees AuthRecords AuthEffects AuthRepositories

namespace PasswordService

/-- `validate_password_policy`. -/
def validatePasswordPolicy (d : Deployment) (password : String) : Action Unit := do
  if password.length<8 then
    throw (.badRequest "Password must be at least 8 characters long")
  if !password.toList.any (·.isAlpha) then
    throw (.badRequest "Password must include at least one letter")
  if !password.toList.any d.isDecimal then
    throw (.badRequest "Password must include at least one digit")

/-- A salted hash. -/
def hash (text : String) : Action PasswordHash := do return ⟨←draw,text⟩

/-- `hash_password`. -/
def hashPassword (d : Deployment) (password : String) : Action PasswordHash := do
  validatePasswordPolicy d password
  hash password

/-- `verify_password` and `verify_backup_code`. -/
def verifyPassword (password : String) (passwordHash : PasswordHash) : Bool :=
  passwordHash.text==password

end PasswordService

namespace JWTService

/-- Claims `decode_and_validate` returns. -/
structure TokenClaims where
  /-- The subject. -/
  sub : String
  /-- The token id. -/
  jti : String
  /-- Access or refresh. -/
  tokenType : TokenType
  /-- The session id. -/
  sessionId : Option String
  /-- The refresh family id. -/
  familyId : Option String

/-- `issue_access_token`. -/
def issueAccessToken (d : Deployment) (subject sessionId : UUID) : Action (RawToken×ℕ) := do
  let now ← utcNow
  let jti ← uuid4
  let token ← external (.sign {
    sub := subject.str
    jti := jti.str
    iss := d.settings.jwtIssuer
    aud := d.settings.jwtAudience
    iat := now/1000000
    nbf := now/1000000
    exp := (now+seconds d.settings.jwtAccessTtlSeconds)/1000000
    type := .access
    sid := some sessionId.str
    familyId := none})
  return (token,d.settings.jwtAccessTtlSeconds)

/-- `issue_refresh_token`. -/
def issueRefreshToken (d : Deployment) (subject sessionId familyId jti : UUID) :
    Action (RawToken×Instant) := do
  let now ← utcNow
  let exp := now+seconds d.settings.jwtRefreshTtlSeconds
  let token ← external (.sign {
    sub := subject.str
    jti := jti.str
    iss := d.settings.jwtIssuer
    aud := d.settings.jwtAudience
    iat := now/1000000
    nbf := now/1000000
    exp := exp/1000000
    type := .refresh
    sid := some sessionId.str
    familyId := some familyId.str})
  return (token,exp)

/-- The registered claims hold at an instant. A token is rejected from its
expiry on. -/
def claimsHold (d : Deployment) (payload : TokenPayload) (now : Instant) : Bool :=
  seconds payload.iat≤now && seconds payload.nbf≤now && now<seconds payload.exp &&
    payload.iss==d.settings.jwtIssuer && payload.aud==d.settings.jwtAudience

/-- The first check of `decode_and_validate` that a signed token fails. -/
def refusal (d : Deployment) (payload : TokenPayload) (expectedType : TokenType)
    (now : Instant) : Option Failure :=
  if !claimsHold d payload now then some (.invalidToken "Invalid token")
  else if payload.type≠expectedType then some (.invalidToken "Unexpected token type")
  else if expectedType=.access ∧ payload.sid=none then
    some (.invalidToken "Missing access token sid claim")
  else if expectedType=.refresh ∧ (payload.sid=none ∨ payload.familyId=none) then
    some (.invalidToken "Missing required refresh token claims")
  else none

/-- `decode_and_validate`. -/
def decodeAndValidate (d : Deployment) (token : RawToken) (expectedType : TokenType) :
    Action TokenClaims := do
  match token with
  | .garbage _ => throw (.invalidToken "Invalid token")
  | .signed payload _ =>
    match refusal d payload expectedType (←utcNow) with
    | some failure => throw failure
    | none => return ⟨payload.sub,payload.jti,payload.type,payload.sid,payload.familyId⟩

end JWTService

namespace AuditService

/-- `SENSITIVE_FIELDS`. -/
def sensitiveFields : List String :=
  ["password","password_hash","access_token","refresh_token","authorization","totp_code",
    "backup_code","backup_codes","secret","encrypted_secret","private_key","token"]

mutual

/-- `_sanitize_value`: mappings and lists are sanitized, tuples are not. -/
def sanitizeValue (d : Deployment) : PyValue → PyValue
  | .dict items => .dict (sanitizePayload d items)
  | .list items => .list (sanitizeItems d items)
  | .none => .none
  | .bool value => .bool value
  | .int value => .int value
  | .float bits => .float bits
  | .str value => .str value
  | .tuple items => .tuple items

/-- The items of a list, each sanitized. -/
def sanitizeItems (d : Deployment) : List PyValue → List PyValue
  | [] => []
  | item::rest => sanitizeValue d item::sanitizeItems d rest

/-- `_sanitize_payload`: fields with a sensitive name are dropped. -/
def sanitizePayload (d : Deployment) : List (String×PyValue) → List (String×PyValue)
  | [] => []
  | (key,value)::rest =>
    if d.lower key∈sensitiveFields then sanitizePayload d rest
    else (key,sanitizeValue d value)::sanitizePayload d rest

end

/-- `log_event`. -/
def logEvent (d : Deployment) (eventType outcome : String)
    (actorUserId targetUserId : Option UUID) (ipAddress userAgent : Option String)
    (payload : List (String×PyValue)) : Action Unit :=
  AuditRepository.create
    ⟨eventType,outcome,actorUserId,targetUserId,ipAddress,userAgent,sanitizePayload d payload⟩

end AuditService

namespace BruteForceProtectionService

/-- `BruteForcePolicy`. -/
structure BruteForcePolicy where
  /-- Failures that lock. -/
  maxAttempts : ℕ
  /-- Window of the counter. -/
  windowSeconds : ℕ
  /-- Length of a lock. -/
  lockSeconds : ℕ

/-- `_policy`. -/
def policy (s : Settings) : Scope → BruteForcePolicy
  | .login | .loginAccount =>
    ⟨s.bruteForceLoginMaxAttempts,s.bruteForceLoginWindowSeconds,s.bruteForceLoginLockSeconds⟩
  | .twoFactor =>
    ⟨s.bruteForce2faMaxAttempts,s.bruteForce2faWindowSeconds,s.bruteForce2faLockSeconds⟩
  | .passwordReset | .passwordResetAccount =>
    ⟨s.bruteForcePasswordResetMaxAttempts,s.bruteForcePasswordResetWindowSeconds,
      s.bruteForcePasswordResetLockSeconds⟩

/-- `brute_force_fail_key` of an identifier. -/
def failKey (d : Deployment) (scope : Scope) (identifier : String) : RedisKey :=
  .bruteForceFail scope (stableHmacDigest identifier d.settings.privacyKeyPepper)

/-- `brute_force_lock_key` of an identifier. -/
def lockKey (d : Deployment) (scope : Scope) (identifier : String) : RedisKey :=
  .bruteForceLock scope (stableHmacDigest identifier d.settings.privacyKeyPepper)

/-- `assert_not_locked`. -/
def assertNotLocked (d : Deployment) (scope : Scope) (identifier : String) : Action Unit := do
  let isLocked ← redisExists (lockKey d scope identifier)
  if isLocked then
    let ttl ← redisTtl (lockKey d scope identifier)
    throw (.accountLocked
      ("Too many failed attempts. Retry in "++toString (max ttl 1)++" seconds"))

/-- `record_failure`. -/
def recordFailure (d : Deployment) (scope : Scope) (identifier : String) : Action ℕ := do
  let attempts ← redisIncr (failKey d scope identifier)
  if attempts=1 then
    redisExpire (failKey d scope identifier) (policy d.settings scope).windowSeconds
  if (policy d.settings scope).maxAttempts≤attempts then
    redisSet (lockKey d scope identifier) (.text "1") (policy d.settings scope).lockSeconds
    redisDelete [failKey d scope identifier]
  return attempts

/-- `clear_failures`. -/
def clearFailures (d : Deployment) (scope : Scope) (identifier : String) : Action Unit :=
  redisDelete [failKey d scope identifier,lockKey d scope identifier]

end BruteForceProtectionService

/-- `max(jwt_access_ttl_seconds, 60)`. -/
def revocationTtl (d : Deployment) : ℕ := max d.settings.jwtAccessTtlSeconds 60

/-- `_mark_access_session_revoked`. -/
def markAccessSessionRevoked (d : Deployment) (sessionId : UUID) : Action Unit :=
  redisSet (.accessSessionRevoked sessionId.str) (.text "1") (revocationTtl d)

/-- `_mark_access_sessions_revoked`. -/
def markAccessSessionsRevoked (d : Deployment) : List UUID → Action Unit
  | [] => return ()
  | sessionId::rest => do
    markAccessSessionRevoked d sessionId
    markAccessSessionsRevoked d rest

namespace RefreshTokenService

open JWTService

/-- `TokenPair`. -/
structure TokenPair where
  /-- The access token. -/
  accessToken : RawToken
  /-- The refresh token. -/
  refreshToken : RawToken
  /-- Lifetime of the access token, in seconds. -/
  accessExpiresIn : ℕ
  /-- The refresh family. -/
  refreshFamilyId : UUID
  /-- The session. -/
  sessionId : UUID
deriving DecidableEq

/-- `RefreshRevocationResult`. -/
structure RefreshRevocationResult where
  /-- The refresh family. -/
  familyId : UUID
  /-- The session. -/
  sessionId : UUID
deriving DecidableEq

/-- Identifiers parsed from the claims of a refresh token. -/
structure RefreshIds where
  /-- The token id. -/
  tokenJti : UUID
  /-- The family. -/
  familyId : UUID
  /-- The session. -/
  sessionId : UUID
  /-- The user. -/
  userId : UUID
deriving DecidableEq

/-- `_hash_refresh_token`. -/
def hashRefreshToken (d : Deployment) (token : RawToken) : Hmac RawToken :=
  ⟨d.settings.refreshTokenHashPepper,token⟩

/-- The identifiers a refresh token names, if all of them are well formed. -/
def parseIds (claims : TokenClaims) (sessionId familyId : String) : Option RefreshIds := do
  return ⟨←UUID.parse claims.jti,←UUID.parse familyId,←UUID.parse sessionId,
    ←UUID.parse claims.sub⟩

/-- The checks `rotate` and `revoke` make on the claims. -/
def refreshIds (claims : TokenClaims) : Action RefreshIds := do
  match claims.sessionId,claims.familyId with
  | some sessionId,some familyId =>
    match parseIds claims sessionId familyId with
    | some ids => return ids
    | none => throw (.invalidToken "Malformed UUID claim in token")
  | _,_ => throw (.invalidToken "Missing required refresh token claims")

/-- `issue_for_user`. -/
def issueForUser (d : Deployment) (userId : UUID) (ipAddress userAgent : Option String) :
    Action TokenPair := do
  let familyId ← uuid4
  let session ← SessionRepository.create userId familyId ipAddress userAgent
  let refreshJti ← uuid4
  let (refreshToken,refreshExp) ← issueRefreshToken d userId session.id familyId refreshJti
  RefreshTokenRepository.create {
    userId := userId
    jti := refreshJti
    familyId := familyId
    parentJti := none
    tokenHash := hashRefreshToken d refreshToken
    expiresAt := refreshExp
    rotatedAt := none
    revokedAt := none
    replacedByJti := none
    revocationReason := none
    ipAddress := ipAddress
    userAgent := userAgent}
  let (accessToken,accessExpiresIn) ← issueAccessToken d userId session.id
  return ⟨accessToken,refreshToken,accessExpiresIn,familyId,session.id⟩

/-- The part of `rotate` after all checks: retire the token, insert its child
and issue the new pair. -/
def exchange (d : Deployment) (record : RefreshToken) (ids : RefreshIds)
    (ipAddress userAgent : Option String) : Action TokenPair := do
  let newJti ← uuid4
  let (newRefreshToken,newRefreshExp) ←
    issueRefreshToken d ids.userId ids.sessionId ids.familyId newJti
  RefreshTokenRepository.markRotated record newJti
  RefreshTokenRepository.create {
    userId := ids.userId
    jti := newJti
    familyId := ids.familyId
    parentJti := some record.jti
    tokenHash := hashRefreshToken d newRefreshToken
    expiresAt := newRefreshExp
    rotatedAt := none
    revokedAt := none
    replacedByJti := none
    revocationReason := none
    ipAddress := ipAddress
    userAgent := userAgent}
  SessionRepository.touchFamily ids.familyId
  let (accessToken,accessExpiresIn) ← issueAccessToken d ids.userId ids.sessionId
  return ⟨accessToken,newRefreshToken,accessExpiresIn,ids.familyId,ids.sessionId⟩

/-- `rotate`. -/
def rotate (d : Deployment) (rawRefreshToken : RawToken) (ipAddress userAgent : Option String) :
    Action TokenPair := do
  let claims ← decodeAndValidate d rawRefreshToken .refresh
  let ids ← refreshIds claims
  match ←RefreshTokenRepository.getByJtiForUpdate ids.tokenJti with
  | none => throw (.invalidToken "Invalid token")
  | some record =>
    if record.userId≠ids.userId ∨ record.familyId≠ids.familyId then
      throw (.invalidToken "Refresh token claims do not match persisted token")
    if record.tokenHash≠hashRefreshToken d rawRefreshToken then
      throw (.invalidToken "Invalid token")
    let familyActive ← SessionRepository.isFamilyActive ids.familyId
    if !familyActive then throw (.invalidToken "Session is revoked")
    let now ← utcNow
    if record.expiresAt<now then throw (.invalidToken "Refresh token expired")
    if record.revokedAt.isSome || record.rotatedAt.isSome then
      RefreshTokenRepository.revokeFamily ids.familyId "reuse_detected"
      SessionRepository.revokeFamily ids.familyId
      throw (.tokenReuseDetected ids.sessionId ids.familyId)
    exchange d record ids ipAddress userAgent

/-- A changed token object that the next flush writes. -/
structure PendingRevocation where
  /-- The token. -/
  token : RefreshToken
  /-- The reason to record. -/
  reason : String
  /-- The instant to record. -/
  now : Instant
deriving DecidableEq

/-- `revoke`. A single token is revoked at the caller's next flush. -/
def revoke (d : Deployment) (rawRefreshToken : RawToken) (revokeFamily : Bool)
    (reason : String) :
    Action (Option (RefreshRevocationResult×Option PendingRevocation)) := do
  let claims ← decodeAndValidate d rawRefreshToken .refresh
  let ids ← refreshIds claims
  match ←RefreshTokenRepository.getByJtiForUpdate ids.tokenJti with
  | none => return none
  | some record =>
    if record.tokenHash≠hashRefreshToken d rawRefreshToken then
      throw (.invalidToken "Invalid token")
    if record.familyId≠ids.familyId then
      throw (.invalidToken "Refresh token family mismatch")
    if record.userId≠ids.userId then
      throw (.invalidToken "Refresh token subject mismatch")
    if revokeFamily then
      RefreshTokenRepository.revokeFamily ids.familyId reason
      SessionRepository.revokeFamily ids.familyId
      return some (⟨ids.familyId,ids.sessionId⟩,none)
    let now ← utcNow
    return some (⟨ids.familyId,ids.sessionId⟩,some ⟨record,reason,now⟩)

/-- The flush of a single revoked token. -/
def flushRevocation : Option PendingRevocation → Action Unit
  | none => return ()
  | some pending => RefreshTokenRepository.revokeToken pending.token pending.reason pending.now

end RefreshTokenService

end BackendPlatform.AuthServices
