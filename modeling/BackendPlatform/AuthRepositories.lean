import BackendPlatform.AuthEffects

/-!
# Repositories of the authentication service

The statements each repository sends. Rows loaded earlier in a request keep
their attributes: a later query returns the object already in the identity
map. Changed attributes reach the database at the next flush, as an update of
the changed columns of exactly that row.
-/

set_option autoImplicit false

namespace BackendPlatform.AuthRepositories

open ProgramTrees AuthRecords AuthEffects

/-- A user object with the collections loaded together with it. -/
structure LoadedUser where
  /-- The row when it was loaded. -/
  row : User
  /-- The secret when the user was loaded. -/
  twoFactorSecret : Option TwoFactorSecret
  /-- The backup codes when the user was loaded. -/
  backupCodes : List BackupCode
deriving DecidableEq

/-- An object of a session: what was loaded, until a rollback expires it. -/
structure Instance (α : Type) where
  /-- The attributes as they were loaded. -/
  attributes : α
  /-- The next read of an attribute has to load it again. -/
  expired : Bool

namespace Instance

variable {α β : Type}

/-- An object right after its query. -/
def loaded (attributes : α) : Instance α := ⟨attributes,false⟩

/-- Every attribute is expired. -/
def expire (i : Instance α) : Instance α := {i with expired := true}

/-- Read an attribute outside an awaited call of the session: an expired one
cannot be loaded again there. -/
def read (i : Instance α) (field : α → β) : Action β :=
  if i.expired then throw .missingGreenlet else return field i.attributes

/-- `session.rollback()`, which expires the objects of the session. -/
def rollback (i : Instance α) : Action (Instance α) := do
  AuthEffects.rollback
  return i.expire

/-- Reading an expired object fails. -/
theorem read_expire (i : Instance α) (field : α → β) :
    i.expire.read field=.raise .missingGreenlet := rfl

end Instance

/-- The object a query returns for a fetched row: the one loaded earlier, if
there is one. -/
def identityMap {α : Type} (loaded : List α) (same : α → α → Bool) (fetched : α) : α :=
  (loaded.find? (same fetched)).getD fetched

namespace UserRepository

/-- Load one user; the collections are loaded right after the row. -/
def load (q : User → Bool) : Action (Option LoadedUser) := do
  match ←scalarOneOrNone (←selectRows .users q) with
  | none => return none
  | some row =>
    let secrets ← selectRows .twoFactorSecrets fun s => s.userId==row.id
    let codes ← selectRows .backupCodes fun c => c.userId==row.id
    return some ⟨row,secrets.head?,codes⟩

/-- `get_by_email`. -/
def getByEmail (d : Deployment) (email : String) : Action (Option LoadedUser) :=
  load fun u => u.email==d.lower email

/-- `get_by_id`. -/
def getById (id : UUID) : Action (Option LoadedUser) := load fun u => u.id==id

/-- `create`. -/
def create (d : Deployment) (email : String) (passwordHash : PasswordHash) : Action User := do
  let user : User := ⟨←uuid4,d.lower email,passwordHash,true,false,false,false⟩
  insertRow .users user
  return user

/-- The flush of `login_blocked = True`. -/
def flushLoginBlocked (user : LoadedUser) : Action Unit :=
  flushUpdate .users (fun u => u.id==user.row.id) fun u => {u with loginBlocked := true}

/-- The flush of `password_reset_blocked = True`. -/
def flushPasswordResetBlocked (user : LoadedUser) : Action Unit :=
  flushUpdate .users (fun u => u.id==user.row.id) fun u => {u with passwordResetBlocked := true}

/-- The flush of `two_factor_enabled`. -/
def flushTwoFactorEnabled (user : LoadedUser) (enabled : Bool) : Action Unit :=
  flushUpdate .users (fun u => u.id==user.row.id) fun u => {u with twoFactorEnabled := enabled}

/-- The flush of `update_password`. Only changed columns are written: the
reset flow is never blocked here, the sign-in block only if it was loaded. -/
def flushUpdatePassword (user : LoadedUser) (passwordHash : PasswordHash) : Action Unit :=
  flushUpdate .users (fun u => u.id==user.row.id) fun u =>
    {u with
      passwordHash := passwordHash
      loginBlocked := if user.row.loginBlocked then false else u.loginBlocked}

end UserRepository

namespace RefreshTokenRepository

/-- `create`. -/
def create (token : RefreshToken) : Action Unit := insertRow .refreshTokens token

/-- `get_by_jti_for_update`. -/
def getByJtiForUpdate (jti : UUID) : Action (Option RefreshToken) := do
  scalarOneOrNone (←selectRowsForUpdate .refreshTokens fun r => r.jti==jti)

/-- `revoke_token`, with its flush. -/
def revokeToken (token : RefreshToken) (reason : String) (now : Instant) : Action Unit :=
  flushUpdate .refreshTokens (fun r => r.jti==token.jti) fun r =>
    {r with revokedAt := some now, revocationReason := some reason, replacedByJti := none}

/-- `mark_rotated`, with its flush. -/
def markRotated (token : RefreshToken) (replacedByJti : UUID) : Action Unit := do
  let now ← utcNow
  flushUpdate .refreshTokens (fun r => r.jti==token.jti) fun r =>
    {r with
      rotatedAt := some now
      revokedAt := some now
      revocationReason := some "rotated"
      replacedByJti := some replacedByJti}

/-- `UPDATE refresh_tokens SET revoked_at, revocation_reason` where a
condition holds and `revoked_at` is null. -/
def revokeWhere (q : RefreshToken → Bool) (reason : String) : Action Unit := do
  let now ← utcNow
  let _ ← updateRows .refreshTokens (fun r => q r && r.revokedAt.isNone) fun r =>
    {r with revokedAt := some now, revocationReason := some reason}

/-- `revoke_family`. -/
def revokeFamily (familyId : UUID) (reason : String) : Action Unit :=
  revokeWhere (fun r => r.familyId==familyId) reason

/-- `revoke_all_for_user`. -/
def revokeAllForUser (userId : UUID) (reason : String) : Action Unit :=
  revokeWhere (fun r => r.userId==userId) reason

end RefreshTokenRepository

namespace SessionRepository

/-- `create`; the id is drawn when the row is flushed. -/
def create (userId refreshFamilyId : UUID) (ipAddress userAgent : Option String) :
    Action UserSession := do
  let session : UserSession := ⟨←uuid4,userId,refreshFamilyId,ipAddress,userAgent,none,none⟩
  insertRow .userSessions session
  return session

/-- `UPDATE user_sessions SET revoked_at` where a condition holds and
`revoked_at` is null. -/
def revokeWhere (q : UserSession → Bool) : Action Unit := do
  let now ← utcNow
  let _ ← updateRows .userSessions (fun s => q s && s.revokedAt.isNone) fun s =>
    {s with revokedAt := some now}

/-- `revoke_family`. -/
def revokeFamily (refreshFamilyId : UUID) : Action Unit :=
  revokeWhere fun s => s.refreshFamilyId==refreshFamilyId

/-- `touch_family`. -/
def touchFamily (refreshFamilyId : UUID) : Action Unit := do
  let now ← utcNow
  let _ ← updateRows .userSessions
    (fun s => s.refreshFamilyId==refreshFamilyId && s.revokedAt.isNone) fun s =>
      {s with lastSeenAt := some now}

/-- `is_family_active`. -/
def isFamilyActive (refreshFamilyId : UUID) : Action Bool := do
  let rows ← selectRows .userSessions fun s =>
    s.refreshFamilyId==refreshFamilyId && s.revokedAt.isNone
  return 0<rows.length

/-- `list_active_session_ids_for_user`. -/
def listActiveSessionIdsForUser (userId : UUID) : Action (List UUID) := do
  let rows ← selectRows .userSessions fun s => s.userId==userId && s.revokedAt.isNone
  return rows.map (·.id)

/-- `revoke_user_sessions`. -/
def revokeUserSessions (userId : UUID) : Action Unit := revokeWhere fun s => s.userId==userId

end SessionRepository

namespace TwoFactorRepository

/-- The object a secret query returns for the loaded user. -/
def known (user : LoadedUser) (found : Option TwoFactorSecret) : Option TwoFactorSecret :=
  found.map (identityMap user.twoFactorSecret.toList fun a b => a.id==b.id)

/-- `get_secret`. -/
def getSecret (user : LoadedUser) : Action (Option TwoFactorSecret) := do
  return known user
    (←scalarOneOrNone (←selectRows .twoFactorSecrets fun s => s.userId==user.row.id))

/-- `get_secret_for_update`. -/
def getSecretForUpdate (user : LoadedUser) : Action (Option TwoFactorSecret) := do
  return known user
    (←scalarOneOrNone (←selectRowsForUpdate .twoFactorSecrets fun s => s.userId==user.row.id))

/-- A column that changes only if the new value differs from the loaded one. -/
def changed {α : Type} [DecidableEq α] (loaded value current : α) : α :=
  if loaded=value then current else value

/-- `upsert_secret`, with its flush. -/
def upsertSecret (user : LoadedUser) (encryptedSecret : EncryptedSecret) : Action Unit := do
  match ←getSecret user with
  | none =>
    insertRow .twoFactorSecrets ⟨←uuid4,user.row.id,encryptedSecret,none,none⟩
  | some record =>
    flushUpdate .twoFactorSecrets (fun s => s.id==record.id) fun s =>
      {s with
        encryptedSecret := encryptedSecret
        confirmedAt := changed record.confirmedAt none s.confirmedAt
        lastUsedTimecode := changed record.lastUsedTimecode none s.lastUsedTimecode}

/-- The flush of `confirm_secret`. -/
def flushConfirmSecret (record : TwoFactorSecret) (now : Instant) (lastUsedTimecode : ℕ) :
    Action Unit :=
  flushUpdate .twoFactorSecrets (fun s => s.id==record.id) fun s =>
    {s with
      confirmedAt := some now
      lastUsedTimecode :=
        changed record.lastUsedTimecode (some lastUsedTimecode) s.lastUsedTimecode}

/-- The flush of `update_last_used_timecode`; the timecode has grown. -/
def flushLastUsedTimecode (secretId : UUID) (lastUsedTimecode : ℕ) : Action Unit :=
  flushUpdate .twoFactorSecrets (fun s => s.id==secretId) fun s =>
    {s with lastUsedTimecode := some lastUsedTimecode}

/-- `list_backup_codes_for_update`. -/
def listBackupCodesForUpdate (user : LoadedUser) : Action (List BackupCode) := do
  let rows ← selectRowsForUpdate .backupCodes fun c => c.userId==user.row.id
  return rows.map (identityMap user.backupCodes fun a b => a.id==b.id)

/-- The flush of `mark_backup_code_used`. -/
def flushBackupCodeUsed (codeId : UUID) (usedAt : Instant) : Action Unit :=
  flushUpdate .backupCodes (fun c => c.id==codeId) fun c => {c with usedAt := some usedAt}

/-- The rows `replace_backup_codes` adds, with their flush. -/
def insertBackupCodes (userId : UUID) : List PasswordHash → Action Unit
  | [] => return ()
  | codeHash::rest => do
    insertRow .backupCodes ⟨←uuid4,userId,codeHash,none⟩
    insertBackupCodes userId rest

/-- `replace_backup_codes`, with its flush. -/
def replaceBackupCodes (userId : UUID) (hashes : List PasswordHash) : Action Unit := do
  let _ ← deleteRows .backupCodes fun c => c.userId==userId
  insertBackupCodes userId hashes

/-- `delete_two_factor_data`. -/
def deleteTwoFactorData (userId : UUID) : Action Unit := do
  let _ ← deleteRows .backupCodes fun c => c.userId==userId
  let _ ← deleteRows .twoFactorSecrets fun s => s.userId==userId

end TwoFactorRepository

namespace PasswordResetRepository

/-- `create`. -/
def create (userId : UUID) (tokenHash : Hmac String) (expiresAt : Instant)
    (requestedIp requestedUserAgent : String) : Action Unit := do
  insertRow .passwordResetTokens
    ⟨←uuid4,userId,tokenHash,some requestedIp,some requestedUserAgent,expiresAt,none⟩

/-- `mark_active_for_user_used`. -/
def markActiveForUserUsed (userId : UUID) (usedAt : Instant) : Action Unit := do
  let _ ← updateRows .passwordResetTokens (fun r => r.userId==userId && r.usedAt.isNone) fun r =>
    {r with usedAt := some usedAt}

/-- `get_active_for_user_by_hash`. -/
def getActiveForUserByHash (userId : UUID) (tokenHash : Hmac String) :
    Action (Option PasswordResetToken) := do
  scalarOneOrNone (←selectRowsForUpdate .passwordResetTokens fun r =>
    r.tokenHash==tokenHash && r.userId==userId && r.usedAt.isNone)

/-- The flush of `mark_used`. -/
def flushUsed (record : PasswordResetToken) (usedAt : Instant) : Action Unit :=
  flushUpdate .passwordResetTokens (fun r => r.id==record.id) fun r =>
    {r with usedAt := some usedAt}

end PasswordResetRepository

namespace AuditRepository

/-- `create`. -/
def create (event : AuditEvent) : Action Unit := insertRow .auditEvents event

end AuditRepository

end BackendPlatform.AuthRepositories
