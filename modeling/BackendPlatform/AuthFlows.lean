import BackendPlatform.AuthServices

/-!
# Flows of the authentication service

Second factors, password reset, registration, sign-in, refresh and logout,
and the requests that carry an access token. Each request runs in its own
database session, which is closed without a commit when the request ends.
-/

set_option autoImplicit false

namespace BackendPlatform.AuthFlows

open ProgramTrees TransactionalTables AuthRecords AuthEffects AuthRepositories AuthServices
open AuditService BruteForceProtectionService RefreshTokenService

namespace TwoFactorService

/-- A changed second-factor object that the next flush writes. -/
inductive PendingFactor where
  /-- `last_used_timecode` of a secret. -/
  | lastUsedTimecode (secretId : UUID) (timecode : ℕ)
  /-- `used_at` of a backup code. -/
  | backupCodeUsed (codeId : UUID) (usedAt : Instant)
deriving DecidableEq

/-- The flush of an accepted second factor. -/
def flushFactor : PendingFactor → Action Unit
  | .lastUsedTimecode secretId timecode =>
    TwoFactorRepository.flushLastUsedTimecode secretId timecode
  | .backupCodeUsed codeId usedAt => TwoFactorRepository.flushBackupCodeUsed codeId usedAt

/-- Timecodes tried around the current one, earliest first. -/
def candidateTimecodes (current : ℕ) : List ℕ :=
  (if current=0 then [] else [current-1])++[current,current+1]

/-- `verify_totp_code` with a window of one interval. -/
def verifyTotpCode (d : Deployment) (secret : TotpSecret) (code : String) :
    Action (Bool×ℕ) := do
  let now ← utcNow
  if d.settings.totpIntervalSeconds=0 then throw .zeroDivision
  let current := now/1000000/d.settings.totpIntervalSeconds
  match (candidateTimecodes current).find? fun timecode =>
      d.normalize code=d.normalize (d.totpAt secret timecode) with
  | some timecode => return (true,timecode)
  | none => return (false,current)

/-- Give up on a second-factor code. -/
def rejectCode {α : Type} (user : LoadedUser) : Action α := do
  observe (.codeRejected user.row.id)
  throw .invalidTwoFactorCode

/-- `_verify_totp`; the new timecode is written at the next flush. -/
def verifyTotp (d : Deployment) (user : LoadedUser) (totpCode : String) :
    Action PendingFactor := do
  match ←TwoFactorRepository.getSecret user with
  | none => throw .twoFactorNotEnabled
  | some record =>
    if record.confirmedAt.isNone then throw .twoFactorNotEnabled
    let secret := record.encryptedSecret.secret
    let (isValid,timecode) ← verifyTotpCode d secret totpCode
    if !isValid then rejectCode user
    else if record.lastUsedTimecode.any (timecode≤·) then rejectCode user
    else
      observe (.totpAccepted user.row.id secret timecode)
      return .lastUsedTimecode record.id timecode

/-- `_verify_backup_code`; the used code is written at the next flush. -/
def verifyBackupCode (user : LoadedUser) (backupCode : String) : Action PendingFactor := do
  let codes ← TwoFactorRepository.listBackupCodesForUpdate user
  match codes.find? fun candidate => candidate.usedAt.isNone &&
      PasswordService.verifyPassword backupCode candidate.codeHash with
  | none => rejectCode user
  | some candidate =>
    observe (.backupCodeAccepted user.row.id candidate.id)
    let now ← utcNow
    return .backupCodeUsed candidate.id now

/-- A text that is present and not empty. -/
def given (code : Option String) : Option String := code.filter (·≠"")

/-- `verify_for_login`. -/
def verifyForLogin (d : Deployment) (user : LoadedUser) (totpCode backupCode : Option String) :
    Action PendingFactor := do
  if !user.row.twoFactorEnabled then throw .twoFactorNotEnabled
  match given totpCode,given backupCode with
  | some code,none => verifyTotp d user code
  | none,some code => verifyBackupCode user code
  | _,_ => throw (.badRequest "Provide either totp_code or backup_code")

/-- Characters of backup codes. -/
def backupCodeAlphabet : List Char := "ABCDEFGHJKLMNPQRSTUVWXYZ23456789".toList

/-- Random characters of backup codes. -/
def randomCharacters : ℕ → Action (List Char)
  | 0 => return []
  | n+1 => do
    let index ← external (.randbelow backupCodeAlphabet.length)
    return backupCodeAlphabet.getD index 'A'::(←randomCharacters n)

/-- `_generate_plain_backup_codes`. -/
def generatePlainBackupCodes : ℕ → Action (List String)
  | 0 => return []
  | count+1 => do
    let left ← randomCharacters 4
    let right ← randomCharacters 4
    return String.ofList (left++ '-'::right)::(←generatePlainBackupCodes count)

/-- Hashes of backup codes. -/
def hashBackupCodes : List String → Action (List PasswordHash)
  | [] => return []
  | code::rest => do
    let codeHash ← PasswordService.hash code
    return codeHash::(←hashBackupCodes rest)

/-- What `create_setup` returns; the QR code is an image of the URI. -/
structure TwoFactorSetupData where
  /-- The new secret. -/
  secret : TotpSecret
  /-- Issuer and account name of the provisioning URI. -/
  provisioningUri : String×String
  /-- The backup codes, once. -/
  backupCodes : List String
deriving DecidableEq

/-- `create_setup`. -/
def createSetup (d : Deployment) (user : LoadedUser) : Action TwoFactorSetupData := do
  if user.row.twoFactorEnabled then throw .twoFactorAlreadyEnabled
  let secret : TotpSecret := ⟨←draw⟩
  TwoFactorRepository.upsertSecret user ⟨secret⟩
  let plainCodes ← generatePlainBackupCodes 10
  let hashes ← hashBackupCodes plainCodes
  TwoFactorRepository.replaceBackupCodes user.row.id hashes
  return ⟨secret,(d.settings.totpIssuer,user.row.email),plainCodes⟩

/-- `enable`, with the flush of the user and of the secret. -/
def enable (d : Deployment) (user : LoadedUser) (totpCode : String) : Action Unit := do
  if user.row.twoFactorEnabled then throw .twoFactorAlreadyEnabled
  match ←TwoFactorRepository.getSecretForUpdate user with
  | none => throw (.badRequest "2FA setup has not been initialized")
  | some record =>
    let (isValid,timecode) ← verifyTotpCode d record.encryptedSecret.secret totpCode
    if !isValid then throw .invalidTwoFactorCode
    observe (.totpAccepted user.row.id record.encryptedSecret.secret timecode)
    let now ← utcNow
    UserRepository.flushTwoFactorEnabled user true
    TwoFactorRepository.flushConfirmSecret record now timecode

/-- `disable`. The deletes flush the accepted factor first. -/
def disable (d : Deployment) (user : LoadedUser) (totpCode backupCode : Option String) :
    Action Unit := do
  let factor ← verifyForLogin d user totpCode backupCode
  flushFactor factor
  TwoFactorRepository.deleteTwoFactorData user.row.id
  UserRepository.flushTwoFactorEnabled user false

/-- `regenerate_backup_codes`. The delete flushes the accepted factor first. -/
def regenerateBackupCodes (d : Deployment) (user : LoadedUser)
    (totpCode backupCode : Option String) : Action (List String) := do
  let factor ← verifyForLogin d user totpCode backupCode
  let plainCodes ← generatePlainBackupCodes 10
  let hashes ← hashBackupCodes plainCodes
  flushFactor factor
  TwoFactorRepository.replaceBackupCodes user.row.id hashes
  return plainCodes

end TwoFactorService

namespace PasswordResetService

/-- `_hash_token`. -/
def hashToken (d : Deployment) (rawToken : String) : Hmac String :=
  ⟨d.settings.passwordResetTokenPepper,rawToken⟩

/-- A number as six digits. -/
def sixDigits (n : ℕ) : String :=
  String.ofList (List.replicate (6-(Nat.repr n).length) '0')++Nat.repr n

/-- `_generate_code`. -/
def generateCode : Action String := do
  return sixDigits (←external (.randbelow 1000000))

/-- A handler of `request_reset` for a message that was not sent: roll back,
read the id of the user for the log record, raise. -/
def failDelivery (user : Instance LoadedUser) : Action Bool := do
  let user ← user.rollback
  let _userId ← user.read (·.row.id)
  throw (.serviceUnavailable
    "Unable to send password reset email. Check SMTP settings or try again later.")

/-- No handler gets to its own exception: the read comes first. -/
theorem failDelivery_eq (user : Instance LoadedUser) :
    failDelivery user=rollback.bind fun _ => .raise .missingGreenlet := by
  unfold failDelivery Instance.rollback
  simp only [Program.monad_bind,Program.monad_pure,Program.bind_assoc,Program.pure_bind,
    Instance.read_expire,Program.raise_bind]

/-- `request_reset`. -/
def requestReset (d : Deployment) (email : String) (ipAddress userAgent : Option String) :
    Action Bool := do
  let normalizedEmail := d.lower email
  match ←UserRepository.getByEmail d normalizedEmail with
  | none => throw .unknownUserPasswordReset
  | some user =>
    if user.row.passwordResetBlocked then
      throw (.passwordResetFlowBlocked d.settings.passwordResetFlowBlockedMessage)
    if !d.settings.smtpIsConfigured then
      if d.settings.authAllowMissingSmtp then return false
      else throw (.serviceUnavailable
        "Password reset email is not configured. Contact the administrator.")
    else
      let code ← generateCode
      let now ← utcNow
      PasswordResetRepository.markActiveForUserUsed user.row.id now
      PasswordResetRepository.create user.row.id (hashToken d code)
        (now+seconds d.settings.passwordResetTokenTtlValue)
        (normalizeOptional d ipAddress) (normalizeOptional d userAgent)
      match (←external (.sendEmail user.row.email "Password reset code"
          ("Your 6-digit password reset code is: "++code++"\n")) : Delivery) with
      | .returned (some true) =>
        logEvent d "auth.password_reset.requested" "success" (some user.row.id) (some user.row.id)
          ipAddress userAgent [("email",.str user.row.email)]
        commit
        return true
      | .returned _ =>
        -- The exception raised here is caught by the broad handler below it.
        failDelivery (←(Instance.loaded user).rollback)
      | .expectedError => failDelivery (.loaded user)
      | .unexpectedError => failDelivery (.loaded user)
      | .interrupted => throw .cancelled

/-- `_record_reset_failure`. -/
def recordResetFailure (d : Deployment) (identifier accountIdentifier : String)
    (user : Option LoadedUser) : Action Unit := do
  let _ ← recordFailure d .passwordReset identifier
  let attempts ← recordFailure d .passwordResetAccount accountIdentifier
  match user with
  | none => return ()
  | some user =>
    if d.settings.bruteForcePasswordResetMaxAttempts≤attempts then
      UserRepository.flushPasswordResetBlocked user
      commit

/-- A refused reset code: count the failure and raise. -/
def refuseCode (d : Deployment) (identifier accountIdentifier : String)
    (user : Option LoadedUser) : Action Unit := do
  recordResetFailure d identifier accountIdentifier user
  throw (.badRequest "Invalid or expired reset code")

/-- The part of `reset_password` after the code was found: change the
password, use the code and close every session of the user. -/
def changePassword (d : Deployment) (user : LoadedUser) (record : PasswordResetToken)
    (now : Instant) (newPassword identifier accountIdentifier : String)
    (ipAddress userAgent : Option String) : Action Unit := do
  let passwordHash ← PasswordService.hashPassword d newPassword
  -- The next query flushes the changed user and the used code.
  UserRepository.flushUpdatePassword user passwordHash
  PasswordResetRepository.flushUsed record now
  let activeSessionIds ← SessionRepository.listActiveSessionIdsForUser user.row.id
  RefreshTokenRepository.revokeAllForUser user.row.id "password_reset"
  SessionRepository.revokeUserSessions user.row.id
  markAccessSessionsRevoked d activeSessionIds
  clearFailures d .passwordReset identifier
  clearFailures d .passwordResetAccount accountIdentifier
  logEvent d "auth.password_reset.completed" "success" (some user.row.id)
    (some user.row.id) ipAddress userAgent []
  commit

/-- `reset_password`. -/
def resetPassword (d : Deployment) (email code newPassword : String)
    (ipAddress userAgent : Option String) : Action Unit := do
  let normalizedEmail := d.lower email
  let identifier := normalizedEmail++":"++orUnknown ipAddress
  assertNotLocked d .passwordReset identifier
  assertNotLocked d .passwordResetAccount normalizedEmail
  match ←UserRepository.getByEmail d normalizedEmail with
  | none => refuseCode d identifier normalizedEmail none
  | some user =>
    if user.row.passwordResetBlocked then
      throw (.passwordResetFlowBlocked d.settings.passwordResetFlowBlockedMessage)
    match ←PasswordResetRepository.getActiveForUserByHash user.row.id (hashToken d code) with
    | none => refuseCode d identifier normalizedEmail (some user)
    | some record =>
      if record.usedAt.isSome then refuseCode d identifier normalizedEmail (some user)
      else
        let now ← utcNow
        if record.expiresAt<now then refuseCode d identifier normalizedEmail (some user)
        else
          changePassword d user record now newPassword identifier normalizedEmail
            ipAddress userAgent

end PasswordResetService

namespace AuthService

/-- `LoginStepResult`. -/
structure LoginStepResult where
  /-- A challenge has to be answered first. -/
  requires2fa : Bool
  /-- The challenge. -/
  challengeId : Option String
  /-- The tokens, without a second factor. -/
  tokens : Option TokenPair
deriving DecidableEq

/-- `register`. -/
def register (d : Deployment) (email password : String) (ipAddress userAgent : Option String) :
    Action Unit := do
  if (←UserRepository.getByEmail d email).isSome then throw .userAlreadyExists
  let passwordHash ← PasswordService.hashPassword d password
  let user ← UserRepository.create d email passwordHash
  logEvent d "auth.register.success" "success" (some user.id) (some user.id) ipAddress userAgent
    [("email",.str user.email)]
  commit

/-- `_context_fingerprint`. -/
def contextFingerprint (d : Deployment) (value : Option String) : Hmac String :=
  stableHmacDigest (normalizeOptional d value) d.settings.privacyKeyPepper

/-- `_create_login_challenge`. -/
def createLoginChallenge (d : Deployment) (userId : UUID) (ipAddress : Option String) :
    Action String := do
  let challengeId := (←uuid4).str
  redisSet (.loginChallenge challengeId)
    (.challenge ⟨some userId.str,some (contextFingerprint d ipAddress)⟩)
    d.settings.loginChallengeTtlSeconds
  return challengeId

/-- `_get_login_challenge`; a value that does not decode is no challenge. -/
def getLoginChallenge (challengeId : String) : Action (Option LoginChallenge) := do
  match (←redisGet (.loginChallenge challengeId) : Option RedisValue) with
  | some (.challenge challenge) => return some challenge
  | _ => return none

/-- `_delete_login_challenge`. -/
def deleteLoginChallenge (challengeId : String) : Action Unit :=
  redisDelete [.loginChallenge challengeId]

/-- `_challenge_context_matches`. -/
def challengeContextMatches (d : Deployment) (challenge : LoginChallenge)
    (ipAddress : Option String) : Bool :=
  challenge.ipFingerprint==some (contextFingerprint d ipAddress)

/-- The failure counted for an existing account, and whether it blocks the
account. -/
def recordAccountFailure (d : Deployment) (normalizedEmail : String) :
    Option LoadedUser → Action Bool
  | none => return false
  | some user => do
    let acctAttempts ← recordFailure d .loginAccount normalizedEmail
    if d.settings.bruteForceLoginMaxAttempts≤acctAttempts then
      UserRepository.flushLoginBlocked user
      return true
    else return false

/-- The part of `login` after a wrong password. -/
def rejectPassword (d : Deployment) (user : Option LoadedUser)
    (normalizedEmail identifier : String) (ipAddress userAgent : Option String) :
    Action LoginStepResult := do
  let _ ← recordFailure d .login identifier
  let loginBlocked ← recordAccountFailure d normalizedEmail user
  logEvent d "auth.login.failed" "failure" (user.map (·.row.id))
    (user.map (·.row.id)) ipAddress userAgent
    [("email",.str normalizedEmail)]
  commit
  if loginBlocked then throw (.accountLoginBlocked d.settings.accountLoginLockedMessage)
  else throw .invalidCredentials

/-- Audit a refused sign-in, commit and raise. -/
def refuse {α : Type} (d : Deployment) (userId : Option UUID) (ipAddress userAgent : Option String)
    (payload : List (String×PyValue)) (failure : Failure) : Action α := do
  logEvent d "auth.login.failed" "failure" userId userId ipAddress userAgent payload
  commit
  throw failure

/-- The part of `login` after the right password of an active user. -/
def grantAccess (d : Deployment) (user : LoadedUser) (normalizedEmail identifier : String)
    (ipAddress userAgent : Option String) : Action LoginStepResult := do
  clearFailures d .login identifier
  clearFailures d .loginAccount normalizedEmail
  if user.row.twoFactorEnabled then
    let challengeId ← createLoginChallenge d user.row.id ipAddress
    return ⟨true,some challengeId,none⟩
  let tokenPair ← issueForUser d user.row.id ipAddress userAgent
  logEvent d "auth.login.success" "success" (some user.row.id)
    (some user.row.id) ipAddress userAgent []
  commit
  return ⟨false,none,some tokenPair⟩

/-- `login`. -/
def login (d : Deployment) (email password : String) (ipAddress userAgent : Option String) :
    Action LoginStepResult := do
  let normalizedEmail := d.lower email
  let identifier := normalizedEmail++":"++orUnknown ipAddress
  match ←UserRepository.getByEmail d normalizedEmail with
  | none =>
    assertNotLocked d .login identifier
    rejectPassword d none normalizedEmail identifier ipAddress userAgent
  | some user =>
    if user.row.loginBlocked then
      throw (.accountLoginBlocked d.settings.accountLoginLockedMessage)
    assertNotLocked d .login identifier
    assertNotLocked d .loginAccount normalizedEmail
    if !PasswordService.verifyPassword password user.row.passwordHash then
      rejectPassword d (some user) normalizedEmail identifier ipAddress userAgent
    else if !user.row.isActive then
      refuse d (some user.row.id) ipAddress userAgent
        [("email",.str normalizedEmail),("reason",.str "inactive_account")] .invalidCredentials
    else grantAccess d user normalizedEmail identifier ipAddress userAgent

/-- The part of `verify_login_challenge` after the second factor. -/
def redeemChallenge (d : Deployment) (user : LoadedUser)
    (factor : TwoFactorService.PendingFactor) (challengeId identifier : String)
    (ipAddress userAgent : Option String) : Action TokenPair := do
  clearFailures d .twoFactor identifier
  deleteLoginChallenge challengeId
  -- Inserting the session flushes the accepted factor.
  TwoFactorService.flushFactor factor
  let tokenPair ← issueForUser d user.row.id ipAddress userAgent
  logEvent d "auth.login.success" "success" (some user.row.id)
    (some user.row.id) ipAddress userAgent
    [("via",.str "2fa_challenge")]
  commit
  return tokenPair

/-- The part of `verify_login_challenge` from the second factor on. -/
def answerChallenge (d : Deployment) (user : LoadedUser)
    (challengeId identifier : String) (totpCode backupCode : Option String)
    (ipAddress userAgent : Option String) : Action TokenPair := do
  let factor ← tryCatch (TwoFactorService.verifyForLogin d user totpCode backupCode)
    fun failure => do
      if failure=.invalidTwoFactorCode then
        let _ ← recordFailure d .twoFactor identifier
        refuse d (some user.row.id) ipAddress userAgent
          [("reason",.str "invalid_2fa")] .invalidTwoFactorCode
      else throw failure
  redeemChallenge d user factor challengeId identifier ipAddress userAgent

/-- `verify_login_challenge`. -/
def verifyLoginChallenge (d : Deployment) (challengeId : String)
    (totpCode backupCode : Option String) (ipAddress userAgent : Option String) :
    Action TokenPair := do
  let identifier := challengeId++":"++orUnknown ipAddress
  assertNotLocked d .twoFactor identifier
  match ←getLoginChallenge challengeId with
  | none => throw .invalidChallenge
  | some challenge =>
    if !challengeContextMatches d challenge ipAddress then
      let _ ← recordFailure d .twoFactor identifier
      deleteLoginChallenge challengeId
      refuse d none ipAddress userAgent
        [("reason",.str "challenge_context_mismatch")] .invalidChallenge
    else match challenge.userId.bind UUID.parse with
      | none => throw .invalidChallenge
      | some userId =>
        match ←UserRepository.getById userId with
        | none => throw .invalidChallenge
        | some user =>
          if !user.row.isActive then
            deleteLoginChallenge challengeId
            refuse d (some user.row.id) ipAddress userAgent
              [("reason",.str "inactive_account"),("via",.str "2fa_challenge")]
              .invalidCredentials
          else
            answerChallenge d user challengeId identifier totpCode backupCode
              ipAddress userAgent

/-- The handlers of `refresh_tokens`: a reused token also marks its session
in Redis, both errors are audited and committed. -/
def refreshFailed (d : Deployment) (ipAddress userAgent : Option String) (failure : Failure) :
    Action TokenPair := do
  match failure with
  | .tokenReuseDetected sessionId familyId =>
    markAccessSessionRevoked d sessionId
    logEvent d "auth.refresh.reuse_detected" "failure" none none ipAddress userAgent
      [("reason",.str "reused_refresh")]
    commit
    throw (.tokenReuseDetected sessionId familyId)
  | .invalidToken message =>
    logEvent d "auth.refresh.reuse_detected" "failure" none none ipAddress userAgent
      [("reason",.str "invalid_or_reused_refresh")]
    commit
    throw (.invalidToken message)
  | other => throw other

/-- `refresh_tokens`. -/
def refreshTokens (d : Deployment) (refreshToken : RawToken)
    (ipAddress userAgent : Option String) : Action TokenPair := do
  let tokenPair ← tryCatch (rotate d refreshToken ipAddress userAgent)
    (refreshFailed d ipAddress userAgent)
  logEvent d "auth.refresh.success" "success" none none ipAddress userAgent []
  commit
  return tokenPair

/-- `revoke_refresh_token`. -/
def revokeRefreshToken (d : Deployment) (refreshToken : RawToken) (revokeFamily : Bool)
    (ipAddress userAgent : Option String) : Action Unit := do
  match ←revoke d refreshToken revokeFamily "logout" with
  | none =>
    logEvent d "auth.refresh.revoked" "success" none none ipAddress userAgent [("family_id",.none)]
    commit
  | some (revocation,pending) =>
    markAccessSessionRevoked d revocation.sessionId
    flushRevocation pending
    logEvent d "auth.refresh.revoked" "success" none none ipAddress userAgent
      [("family_id",.str revocation.familyId.str)]
    commit

end AuthService

namespace Endpoints

/-- The `Authorization` header of a request. -/
inductive Authorization where
  /-- Missing, or not a bearer header. -/
  | invalid
  /-- A bearer header without a token. -/
  | empty
  /-- A bearer token. -/
  | bearer (token : RawToken)

/-- `extract_bearer_token`. -/
def extractBearerToken : Authorization → Action RawToken
  | .invalid => throw (.unauthorized "Missing or invalid authorization header")
  | .empty => throw (.unauthorized "Missing bearer token")
  | .bearer token => return token

/-- `ensure_access_session_active`. -/
def ensureAccessSessionActive (sessionId : UUID) : Action Unit := do
  if ←redisExists (.accessSessionRevoked sessionId.str) then
    throw (.unauthorized "Access session revoked")

/-- `get_current_user`. -/
def getCurrentUser (d : Deployment) (authorization : Authorization) : Action LoadedUser := do
  let token ← extractBearerToken authorization
  let claims ← JWTService.decodeAndValidate d token .access
  match UUID.parse claims.sub,claims.sessionId.bind UUID.parse with
  | some userId,some sessionId =>
    ensureAccessSessionActive sessionId
    match ←UserRepository.getById userId with
    | none => throw (.unauthorized "User not found")
    | some user =>
      if !user.row.isActive then throw (.unauthorized "User is inactive")
      return user
  | _,_ => throw (.unauthorized "Invalid access token claims")

/-- Audit a completed second-factor change of the current user and commit. -/
def completed (d : Deployment) (eventType : String) (user : LoadedUser)
    (ipAddress userAgent : Option String) : Action Unit := do
  logEvent d eventType "success" (some user.row.id) (some user.row.id) ipAddress userAgent []
  commit

/-- `POST /two-factor/setup`. -/
def setupTwoFactor (d : Deployment) (authorization : Authorization)
    (ipAddress userAgent : Option String) : Action TwoFactorService.TwoFactorSetupData := do
  let currentUser ← getCurrentUser d authorization
  let setupData ← TwoFactorService.createSetup d currentUser
  completed d "auth.2fa.setup.initiated" currentUser ipAddress userAgent
  return setupData

/-- `POST /two-factor/enable`. -/
def enableTwoFactor (d : Deployment) (authorization : Authorization) (totpCode : String)
    (ipAddress userAgent : Option String) : Action Unit := do
  let currentUser ← getCurrentUser d authorization
  TwoFactorService.enable d currentUser totpCode
  completed d "auth.2fa.enabled" currentUser ipAddress userAgent

/-- `POST /two-factor/disable`. -/
def disableTwoFactor (d : Deployment) (authorization : Authorization) (password : String)
    (totpCode backupCode : Option String) (ipAddress userAgent : Option String) :
    Action Unit := do
  let currentUser ← getCurrentUser d authorization
  if !PasswordService.verifyPassword password currentUser.row.passwordHash then
    throw .invalidCredentials
  TwoFactorService.disable d currentUser totpCode backupCode
  completed d "auth.2fa.disabled" currentUser ipAddress userAgent

/-- `POST /two-factor/backup-codes/regenerate`. -/
def regenerateBackupCodes (d : Deployment) (authorization : Authorization)
    (totpCode backupCode : Option String) (ipAddress userAgent : Option String) :
    Action (List String) := do
  let currentUser ← getCurrentUser d authorization
  let plainCodes ← TwoFactorService.regenerateBackupCodes d currentUser totpCode backupCode
  completed d "auth.2fa.backup.regenerated" currentUser ipAddress userAgent
  return plainCodes

end Endpoints

open Endpoints in
/-- A request to the service. -/
inductive Request where
  /-- Create an account. -/
  | register (email password : String)
  /-- Sign in with a password. -/
  | login (email password : String)
  /-- Answer a login challenge. -/
  | verifyLoginChallenge (challengeId : String) (totpCode backupCode : Option String)
  /-- Exchange a refresh token. -/
  | refreshTokens (refreshToken : RawToken)
  /-- Sign out. -/
  | revokeRefreshToken (refreshToken : RawToken) (revokeFamily : Bool)
  /-- Ask for a reset code. -/
  | requestReset (email : String)
  /-- Use a reset code. -/
  | resetPassword (email code newPassword : String)
  /-- Read the current session. -/
  | currentSession (authorization : Authorization)
  /-- Set a second factor up. -/
  | setupTwoFactor (authorization : Authorization)
  /-- Confirm a second factor. -/
  | enableTwoFactor (authorization : Authorization) (totpCode : String)
  /-- Remove the second factor. -/
  | disableTwoFactor (authorization : Authorization) (password : String)
      (totpCode backupCode : Option String)
  /-- Replace the backup codes. -/
  | regenerateBackupCodes (authorization : Authorization) (totpCode backupCode : Option String)

/-- A request with the client address and the client program. -/
structure ClientRequest where
  /-- The request. -/
  request : Request
  /-- Client address. -/
  ipAddress : Option String
  /-- Client program. -/
  userAgent : Option String

/-- What a request returns. -/
inductive Response where
  /-- Nothing but success. -/
  | done
  /-- The result of a sign-in. -/
  | login (result : AuthService.LoginStepResult)
  /-- New tokens. -/
  | tokens (pair : TokenPair)
  /-- Whether a message was sent. -/
  | emailSent (sent : Bool)
  /-- The current user. -/
  | session (user : LoadedUser)
  /-- A new second factor. -/
  | setup (data : TwoFactorService.TwoFactorSetupData)
  /-- New backup codes. -/
  | backupCodes (codes : List String)
deriving DecidableEq

/-- Serve one request. -/
def respond (d : Deployment) (c : ClientRequest) : Action Response :=
  match c.request with
  | .register email password => do
    AuthService.register d email password c.ipAddress c.userAgent
    return .done
  | .login email password => do
    return .login (←AuthService.login d email password c.ipAddress c.userAgent)
  | .verifyLoginChallenge challengeId totpCode backupCode => do
    return .tokens (←AuthService.verifyLoginChallenge d challengeId totpCode backupCode
      c.ipAddress c.userAgent)
  | .refreshTokens refreshToken => do
    return .tokens (←AuthService.refreshTokens d refreshToken c.ipAddress c.userAgent)
  | .revokeRefreshToken refreshToken revokeFamily => do
    AuthService.revokeRefreshToken d refreshToken revokeFamily c.ipAddress c.userAgent
    return .done
  | .requestReset email => do
    return .emailSent (←PasswordResetService.requestReset d email c.ipAddress c.userAgent)
  | .resetPassword email code newPassword => do
    PasswordResetService.resetPassword d email code newPassword c.ipAddress c.userAgent
    return .done
  | .currentSession authorization => do
    return .session (←Endpoints.getCurrentUser d authorization)
  | .setupTwoFactor authorization => do
    return .setup (←Endpoints.setupTwoFactor d authorization c.ipAddress c.userAgent)
  | .enableTwoFactor authorization totpCode => do
    Endpoints.enableTwoFactor d authorization totpCode c.ipAddress c.userAgent
    return .backupCodes []
  | .disableTwoFactor authorization password totpCode backupCode => do
    Endpoints.disableTwoFactor d authorization password totpCode backupCode
      c.ipAddress c.userAgent
    return .done
  | .regenerateBackupCodes authorization totpCode backupCode => do
    return .backupCodes (←Endpoints.regenerateBackupCodes d authorization totpCode backupCode
      c.ipAddress c.userAgent)

section Sample

/-- A deployment that can be run: lower-case ASCII input, codes that name
secret and timecode. -/
def sampleDeployment : Deployment where
  settings := {
    jwtIssuer := "auth-service"
    jwtAudience := "platform"
    jwtAccessTtlSeconds := 900
    jwtRefreshTtlSeconds := 2592000
    refreshTokenHashPepper := "refresh"
    privacyKeyPepper := "privacy"
    passwordResetTokenPepper := "reset"
    totpIssuer := "Platform"
    totpIntervalSeconds := 30
    loginChallengeTtlSeconds := 300
    passwordResetTokenTtlSeconds := 900
    bruteForceLoginMaxAttempts := 2
    bruteForceLoginWindowSeconds := 900
    bruteForceLoginLockSeconds := 900
    bruteForce2faMaxAttempts := 2
    bruteForce2faWindowSeconds := 300
    bruteForce2faLockSeconds := 900
    bruteForcePasswordResetMaxAttempts := 2
    bruteForcePasswordResetWindowSeconds := 900
    bruteForcePasswordResetLockSeconds := 900
    smtpIsConfigured := true
    authAllowMissingSmtp := false
    supportEmail := none}
  lower := id
  strip := id
  isDecimal := fun c => c.isDigit
  normalize := id
  totpAt := fun secret timecode => Nat.repr (1000*secret.draw+timecode)

/-- An account without a second factor. -/
def sampleUser : User := ⟨⟨1⟩,"a@b",⟨0,"password1"⟩,true,false,false,false⟩

/-- An account with a second factor. -/
def sampleUser2fa : User := ⟨⟨2⟩,"c@d",⟨0,"password1"⟩,true,true,false,false⟩

/-- The confirmed secret of that account. -/
def sampleSecret : TwoFactorSecret := ⟨⟨3⟩,⟨2⟩,⟨⟨4⟩⟩,some 1,some 5⟩

/-- An unused backup code of that account. -/
def sampleCode : BackupCode := ⟨⟨5⟩,⟨2⟩,⟨0,"ABCD-EFGH"⟩,none⟩

/-- A database that holds only accounts and their second factors. -/
def sampleDatabase (users : List User) (secrets : List TwoFactorSecret)
    (codes : List BackupCode) : Database authSchema
  | .users => users
  | .twoFactorSecrets => secrets
  | .backupCodes => codes
  | .refreshTokens => []
  | .userSessions => []
  | .passwordResetTokens => []
  | .auditEvents => []

/-- An environment in which nothing has happened yet. -/
def sampleEnvironment : Environment := ⟨ExpiringStore.Store.empty,seconds 3000,10,[],[]⟩

/-- A request from one fixed client. -/
def fromClient (request : Request) : ClientRequest := ⟨request,some "1.2.3.4",none⟩

/-- The refresh token that the first sign-in of the sample account returns. -/
def sampleRefreshToken : RawToken :=
  .signed {
    sub := "1"
    jti := "12"
    iss := "auth-service"
    aud := "platform"
    iat := 3000
    nbf := 3000
    exp := 2595000
    type := .refresh
    sid := some "11"
    familyId := some "10"} 0

end Sample

end BackendPlatform.AuthFlows
