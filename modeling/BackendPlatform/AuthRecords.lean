import BackendPlatform.TransactionalTables
import Mathlib.Data.List.Basic
import Mathlib.Data.Nat.Notation
import Mathlib.Data.Set.Insert
import Mathlib.Tactic.Common

/-!
# Records of the authentication service

Settings, identifiers, tokens, table rows and errors, under the names of the
source. Keyed digests and password hashes keep what they were computed from,
so they are injective and a comparison of digests compares the messages.
Instants and expiries are counted in microseconds, durations of the settings
in seconds.
-/

set_option autoImplicit false

namespace BackendPlatform.AuthRecords

open TransactionalTables

/-- An instant, in microseconds. -/
abbrev Instant := ℕ

/-- The length of a number of seconds. -/
def seconds (n : ℕ) : ℕ := 1000000*n

/-- A universally unique identifier, named by the draw that made it. -/
structure UUID where
  /-- The number behind the identifier. -/
  int : ℕ
deriving DecidableEq

/-- `str(uuid)`. -/
def UUID.str (u : UUID) : String := Nat.repr u.int

/-- `UUID(text)`; a malformed text raises `ValueError` in the source. -/
def UUID.parse (text : String) : Option UUID :=
  let n := Nat.ofDigitChars 10 text.toList 0
  if Nat.repr n=text then some ⟨n⟩ else none

@[simp] theorem UUID.parse_str (u : UUID) : UUID.parse u.str=some u := by
  simp [parse,str]

theorem UUID.str_injective {u v : UUID} (h : u.str=v.str) : u=v := by
  have hp := congrArg UUID.parse h
  rw [UUID.parse_str,UUID.parse_str] at hp
  exact Option.some.inj hp

/-- A keyed digest of a message. -/
structure Hmac (M : Type) where
  /-- The key. -/
  pepper : String
  /-- The message. -/
  message : M
deriving DecidableEq

/-- `stable_hmac_digest`. -/
def stableHmacDigest (value pepper : String) : Hmac String := ⟨pepper,value⟩

/-- An Argon2 hash with its salt. -/
structure PasswordHash where
  /-- The random salt. -/
  salt : ℕ
  /-- The hashed text. -/
  text : String
deriving DecidableEq

/-- A TOTP secret, named by the draw that made it. -/
structure TotpSecret where
  /-- The draw. -/
  draw : ℕ
deriving DecidableEq

/-- A Fernet ciphertext under the key of the service. -/
structure EncryptedSecret where
  /-- The plaintext. -/
  secret : TotpSecret
deriving DecidableEq

/-- Counter scopes of the brute force protection. -/
inductive Scope where
  /-- Sign-in attempts of one address and client. -/
  | login
  /-- Sign-in attempts of one account. -/
  | loginAccount
  /-- Second-factor attempts of one challenge and client. -/
  | twoFactor
  /-- Reset attempts of one address and client. -/
  | passwordReset
  /-- Reset attempts of one account. -/
  | passwordResetAccount
deriving DecidableEq

/-- `Settings`: what the modelled operations read. -/
structure Settings where
  /-- Issuer claim of every token. -/
  jwtIssuer : String
  /-- Audience claim of every token. -/
  jwtAudience : String
  /-- Lifetime of access tokens, in seconds. -/
  jwtAccessTtlSeconds : ℕ
  /-- Lifetime of refresh tokens, in seconds. -/
  jwtRefreshTtlSeconds : ℕ
  /-- Key of the stored refresh token hashes. -/
  refreshTokenHashPepper : String
  /-- Key of identifiers and fingerprints in Redis. -/
  privacyKeyPepper : String
  /-- Key of the stored reset code hashes. -/
  passwordResetTokenPepper : String
  /-- Issuer shown by authenticator applications. -/
  totpIssuer : String
  /-- Length of a TOTP interval, in seconds. -/
  totpIntervalSeconds : ℕ
  /-- Lifetime of a login challenge, in seconds. -/
  loginChallengeTtlSeconds : ℕ
  /-- Configured lifetime of a reset code, in seconds. -/
  passwordResetTokenTtlSeconds : ℕ
  /-- Failures that lock a sign-in scope. -/
  bruteForceLoginMaxAttempts : ℕ
  /-- Window of a sign-in scope. -/
  bruteForceLoginWindowSeconds : ℕ
  /-- Lock of a sign-in scope. -/
  bruteForceLoginLockSeconds : ℕ
  /-- Failures that lock a second-factor scope. -/
  bruteForce2faMaxAttempts : ℕ
  /-- Window of a second-factor scope. -/
  bruteForce2faWindowSeconds : ℕ
  /-- Lock of a second-factor scope. -/
  bruteForce2faLockSeconds : ℕ
  /-- Failures that lock a reset scope. -/
  bruteForcePasswordResetMaxAttempts : ℕ
  /-- Window of a reset scope. -/
  bruteForcePasswordResetWindowSeconds : ℕ
  /-- Lock of a reset scope. -/
  bruteForcePasswordResetLockSeconds : ℕ
  /-- `smtp_is_configured`. -/
  smtpIsConfigured : Bool
  /-- Reset requests succeed silently without SMTP. -/
  authAllowMissingSmtp : Bool
  /-- Contact shown in messages about blocked accounts. -/
  supportEmail : Option String

namespace Settings

/-- `password_reset_token_ttl_value`. -/
def passwordResetTokenTtlValue (s : Settings) : ℕ := max 60 s.passwordResetTokenTtlSeconds

/-- `support_contact_sentence`. -/
def supportContactSentence (s : Settings) : String :=
  match s.supportEmail with
  | some email => "If you need assistance, email "++email++"."
  | none => "If you need assistance, contact your platform administrator."

/-- `account_login_locked_message`. -/
def accountLoginLockedMessage (s : Settings) : String :=
  "Too many failed sign-in attempts. Password sign-in is blocked for this account. "++
  "Use password reset with your email to regain access. "++s.supportContactSentence

/-- `password_reset_flow_blocked_message`. -/
def passwordResetFlowBlockedMessage (s : Settings) : String :=
  "Self-service password reset is not available for this account for security reasons. "++
  s.supportContactSentence

end Settings

/-- The settings together with the Unicode tables and the TOTP algorithm the
service takes from its libraries. -/
structure Deployment where
  /-- The settings. -/
  settings : Settings
  /-- `str.lower`. -/
  lower : String → String
  /-- `str.strip`. -/
  strip : String → String
  /-- A character that `\\d` matches. -/
  isDecimal : Char → Bool
  /-- NFKC normalization, used by `strings_equal`. -/
  normalize : String → String
  /-- The code of a secret at a timecode. -/
  totpAt : TotpSecret → ℕ → String

/-- `normalize_optional`. -/
def normalizeOptional (d : Deployment) (value : Option String) : String :=
  match value with
  | none => "<none>"
  | some text => if d.strip text="" then "<empty>" else d.strip text

/-- `value or 'unknown'`. -/
def orUnknown (value : Option String) : String :=
  match value with
  | none => "unknown"
  | some text => if text="" then "unknown" else text

/-- `TOKEN_TYPE_ACCESS` and `TOKEN_TYPE_REFRESH`. -/
inductive TokenType where
  /-- `access`. -/
  | access
  /-- `refresh`. -/
  | refresh
deriving DecidableEq

/-- Claims of a token of this service. -/
structure TokenPayload where
  /-- The subject: a user id. -/
  sub : String
  /-- The token id. -/
  jti : String
  /-- The issuer. -/
  iss : String
  /-- The audience. -/
  aud : String
  /-- Issued at, in whole seconds. -/
  iat : ℕ
  /-- Not before, in whole seconds. -/
  nbf : ℕ
  /-- Expiry, in whole seconds. -/
  exp : ℕ
  /-- Access or refresh. -/
  type : TokenType
  /-- The session id. -/
  sid : Option String
  /-- The refresh family id. -/
  familyId : Option String
deriving DecidableEq

/-- A token as a client presents it: claims under a valid signature of the
service, in one of their encodings, or anything else. -/
inductive RawToken where
  /-- Signed claims; the service itself hands out encoding zero. -/
  | signed (payload : TokenPayload) (encoding : ℕ)
  /-- A text that no verification accepts. -/
  | garbage (text : String)
deriving DecidableEq

/-- The value of an audit payload field. -/
inductive PyValue where
  /-- `None`. -/
  | none
  /-- A boolean. -/
  | bool (value : Bool)
  /-- An integer. -/
  | int (value : ℤ)
  /-- A float, by its bits. -/
  | float (bits : BitVec 64)
  /-- A text. -/
  | str (value : String)
  /-- A list. -/
  | list (items : List PyValue)
  /-- A tuple. -/
  | tuple (items : List PyValue)
  /-- A mapping with text keys. -/
  | dict (items : List (String×PyValue))

/-- A row of `users`. -/
structure User where
  /-- Primary key. -/
  id : UUID
  /-- Address, lower case. -/
  email : String
  /-- Current password hash. -/
  passwordHash : PasswordHash
  /-- The account may be used. -/
  isActive : Bool
  /-- A second factor is required. -/
  twoFactorEnabled : Bool
  /-- Sign-in is blocked until a reset. -/
  loginBlocked : Bool
  /-- Self-service reset is blocked. -/
  passwordResetBlocked : Bool
deriving DecidableEq

/-- A row of `refresh_tokens`, identified by its unique `jti`. -/
structure RefreshToken where
  /-- The owner. -/
  userId : UUID
  /-- The token id. -/
  jti : UUID
  /-- The family. -/
  familyId : UUID
  /-- The token this one replaced. -/
  parentJti : Option UUID
  /-- Keyed hash of the token. -/
  tokenHash : Hmac RawToken
  /-- Expiry. -/
  expiresAt : Instant
  /-- When it was exchanged. -/
  rotatedAt : Option Instant
  /-- When it was revoked. -/
  revokedAt : Option Instant
  /-- The token that replaced it. -/
  replacedByJti : Option UUID
  /-- Why it was revoked. -/
  revocationReason : Option String
  /-- Client address at creation. -/
  ipAddress : Option String
  /-- Client program at creation. -/
  userAgent : Option String
deriving DecidableEq

/-- A row of `user_sessions`. -/
structure UserSession where
  /-- Primary key. -/
  id : UUID
  /-- The owner. -/
  userId : UUID
  /-- The refresh family of the session. -/
  refreshFamilyId : UUID
  /-- Client address at creation. -/
  ipAddress : Option String
  /-- Client program at creation. -/
  userAgent : Option String
  /-- Last refresh, if any. -/
  lastSeenAt : Option Instant
  /-- When it was revoked. -/
  revokedAt : Option Instant
deriving DecidableEq

/-- A row of `two_factor_secrets`. -/
structure TwoFactorSecret where
  /-- Primary key. -/
  id : UUID
  /-- The owner. -/
  userId : UUID
  /-- The stored secret. -/
  encryptedSecret : EncryptedSecret
  /-- When the owner proved the secret. -/
  confirmedAt : Option Instant
  /-- The last accepted timecode. -/
  lastUsedTimecode : Option ℕ
deriving DecidableEq

/-- A row of `backup_codes`. -/
structure BackupCode where
  /-- Primary key. -/
  id : UUID
  /-- The owner. -/
  userId : UUID
  /-- Hash of the code. -/
  codeHash : PasswordHash
  /-- When the code was used. -/
  usedAt : Option Instant
deriving DecidableEq

/-- A row of `password_reset_tokens`. -/
structure PasswordResetToken where
  /-- Primary key. -/
  id : UUID
  /-- The owner. -/
  userId : UUID
  /-- Keyed hash of the code. -/
  tokenHash : Hmac String
  /-- Client address of the request. -/
  requestedIp : Option String
  /-- Client program of the request. -/
  requestedUserAgent : Option String
  /-- Expiry. -/
  expiresAt : Instant
  /-- When it was used or retired. -/
  usedAt : Option Instant
deriving DecidableEq

/-- A row of `audit_events`, without its own key, which no operation reads. -/
structure AuditEvent where
  /-- What happened. -/
  eventType : String
  /-- Success or failure. -/
  outcome : String
  /-- Who acted. -/
  actorUserId : Option UUID
  /-- Whom it concerns. -/
  targetUserId : Option UUID
  /-- Client address. -/
  ipAddress : Option String
  /-- Client program. -/
  userAgent : Option String
  /-- Sanitized details. -/
  payload : List (String×PyValue)

/-- The tables of the service. -/
inductive Table where
  /-- `users`. -/
  | users
  /-- `refresh_tokens`. -/
  | refreshTokens
  /-- `user_sessions`. -/
  | userSessions
  /-- `two_factor_secrets`. -/
  | twoFactorSecrets
  /-- `backup_codes`. -/
  | backupCodes
  /-- `password_reset_tokens`. -/
  | passwordResetTokens
  /-- `audit_events`. -/
  | auditEvents
deriving DecidableEq

/-- The rows of each table. -/
abbrev Row : Table → Type
  | .users => User
  | .refreshTokens => RefreshToken
  | .userSessions => UserSession
  | .twoFactorSecrets => TwoFactorSecret
  | .backupCodes => BackupCode
  | .passwordResetTokens => PasswordResetToken
  | .auditEvents => AuditEvent

/-- An optional text fits a `varchar` column. -/
def fits (limit : ℕ) (text : Option String) : Bool := text.all (·.length≤limit)

/-- Column lengths of each table. -/
def valid : (t : Table) → Row t → Bool
  | .users,r => r.email.length≤320
  | .refreshTokens,r => fits 64 r.ipAddress && fits 512 r.userAgent
  | .userSessions,r => fits 64 r.ipAddress && fits 512 r.userAgent
  | .twoFactorSecrets,_ => true
  | .backupCodes,_ => true
  | .passwordResetTokens,r => fits 64 r.requestedIp && fits 512 r.requestedUserAgent
  | .auditEvents,r => fits 64 r.ipAddress && fits 512 r.userAgent

/-- Unique constraints of each table. -/
def conflict : (t : Table) → Row t → Row t → Bool
  | .users,a,b => a.id==b.id || a.email==b.email
  | .refreshTokens,a,b => a.jti==b.jti
  | .userSessions,a,b => a.id==b.id
  | .twoFactorSecrets,a,b => a.id==b.id || a.userId==b.userId
  | .backupCodes,a,b => a.id==b.id
  | .passwordResetTokens,a,b => a.id==b.id || a.tokenHash==b.tokenHash
  | .auditEvents,_,_ => false

/-- The database schema of the service. -/
abbrev authSchema : Schema := ⟨Table,Row,valid,conflict⟩

instance : DecidableEq authSchema.Table := inferInstanceAs (DecidableEq Table)

/-- Everything an operation can raise. -/
inductive Failure where
  /-- `UnauthorizedException`. -/
  | unauthorized (message : String)
  /-- `InvalidCredentialsException`. -/
  | invalidCredentials
  /-- `UserAlreadyExistsException`. -/
  | userAlreadyExists
  /-- `AccountLockedException`. -/
  | accountLocked (message : String)
  /-- `AccountLoginBlockedException`. -/
  | accountLoginBlocked (message : String)
  /-- `PasswordResetFlowBlockedException`. -/
  | passwordResetFlowBlocked (message : String)
  /-- `BadRequestException`. -/
  | badRequest (message : String)
  /-- `ServiceUnavailableException`. -/
  | serviceUnavailable (message : String)
  /-- `UnknownUserPasswordResetException`. -/
  | unknownUserPasswordReset
  /-- `InvalidTokenException`. -/
  | invalidToken (message : String)
  /-- `TokenReuseDetectedException`. -/
  | tokenReuseDetected (sessionId familyId : UUID)
  /-- `InvalidTwoFactorCodeException`. -/
  | invalidTwoFactorCode
  /-- `TwoFactorNotEnabledException`. -/
  | twoFactorNotEnabled
  /-- `TwoFactorAlreadyEnabledException`. -/
  | twoFactorAlreadyEnabled
  /-- `InvalidChallengeException`. -/
  | invalidChallenge
  /-- A unique constraint failed: `IntegrityError`. -/
  | integrityError
  /-- A column rejected a value: `DataError`. -/
  | dataError
  /-- A flushed row no longer exists: `StaleDataError`. -/
  | staleData
  /-- A query for one row found several: `MultipleResultsFound`. -/
  | multipleResultsFound
  /-- An expired attribute was read outside a query: `MissingGreenlet`. -/
  | missingGreenlet
  /-- Redis rejected a command: `ResponseError`. -/
  | responseError
  /-- `ZeroDivisionError`. -/
  | zeroDivision
  /-- `asyncio.CancelledError`, which no handler of the service catches. -/
  | cancelled
deriving DecidableEq

end BackendPlatform.AuthRecords
