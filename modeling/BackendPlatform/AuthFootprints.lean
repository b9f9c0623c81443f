import BackendPlatform.AuthFlows

/-!
# Footprints of the services

Which parts of Redis and of the database each function can touch, whatever
the replies. Proofs about one part pass over all functions whose footprint
leaves it alone.
-/

set_option autoImplicit false

namespace BackendPlatform.AuthFootprints

open ProgramTrees TransactionalTables AuthRecords AuthEffects AuthRepositories AuthServices
open AuthFlows

/-- Parts of Redis. -/
inductive Area where
  /-- Markers of revoked access sessions. -/
  | marker
  /-- Failure counters. -/
  | counter
  /-- Locks of brute force scopes. -/
  | lock
  /-- Login challenges. -/
  | challenge
deriving DecidableEq

/-- The part a key belongs to. -/
def area : RedisKey → Area
  | .accessSessionRevoked _ => .marker
  | .bruteForceFail _ _ => .counter
  | .bruteForceLock _ _ => .lock
  | .loginChallenge _ => .challenge

/-- Kinds of access an effect makes. -/
inductive Access where
  /-- The clock. -/
  | clock
  /-- A fresh value. -/
  | draw
  /-- A random number. -/
  | random
  /-- The signing key. -/
  | sign
  /-- The mail server. -/
  | mail
  /-- A recorded decision. -/
  | observe
  /-- A read of a part of Redis. -/
  | redisRead (a : Area)
  /-- A write to a part of Redis. -/
  | redisWrite (a : Area)
  /-- A read of a table. -/
  | select (t : Table)
  /-- A locking read of a table. -/
  | lock (t : Table)
  /-- An insertion. -/
  | insert (t : Table)
  /-- An update. -/
  | update (t : Table)
  /-- A deletion. -/
  | delete (t : Table)
  /-- A commit. -/
  | commit
  /-- A rollback. -/
  | rollback
deriving DecidableEq

/-- The accesses of an effect. -/
def accesses : Effect → List Access
  | .external .now => [.clock]
  | .external .draw => [.draw]
  | .external (.randbelow _) => [.random]
  | .external (.sign _) => [.sign]
  | .external (.redisGet key) => [.redisRead (area key)]
  | .external (.redisSet key _ _) => [.redisWrite (area key)]
  | .external (.redisDelete keys) => keys.map fun key => .redisWrite (area key)
  | .external (.redisExists key) => [.redisRead (area key)]
  | .external (.redisTtl key) => [.redisRead (area key)]
  | .external (.redisIncr key) => [.redisWrite (area key)]
  | .external (.redisExpire key _) => [.redisWrite (area key)]
  | .external (.sendEmail _ _ _) => [.mail]
  | .external (.observe _) => [.observe]
  | .sql (.select t _) => [.select t]
  | .sql (.selectForUpdate t _) => [.lock t]
  | .sql (.insert t _) => [.insert t]
  | .sql (.update t _ _) => [.update t]
  | .sql (.delete t _) => [.delete t]
  | .sql .commit => [.commit]
  | .sql .rollback => [.rollback]

/-- The effect makes no other access than the listed ones. -/
def Uses (footprint : List Access) (op : Effect) : Prop := ∀ a∈accesses op,a∈footprint

/-- Every effect of an action is inside a footprint. -/
abbrev Inside {α : Type} (p : Action α) (footprint : List Access) : Prop :=
  p.Within (Uses footprint)

section Rules

variable {α β : Type} {fp fp' : List Access}

theorem inside_bind {p : Action α} {f : α → Action β} (hp : Inside p fp)
    (hf : ∀ a, Inside (f a) fp) : Inside (p.bind f) fp := Program.within_bind hp hf

theorem inside_mono {p : Action α} (h : Inside p fp) (hs : ∀ a∈fp,a∈fp') : Inside p fp' :=
  Program.within_mono (fun _ hu a ha => hs a (hu a ha)) h

/-- A footprint is closed under a larger one; the inclusion is decided. -/
theorem Inside.widen {p : Action α} (h : Inside p fp)
    (hs : fp.all (fp'.contains ·)=true) : Inside p fp' :=
  inside_mono h fun a ha => by simpa using List.all_eq_true.mp hs a ha

end Rules

attribute [local simp] Uses accesses area external sql

theorem inside_scalarOneOrNone {α : Type} (rows : List α) : Inside (scalarOneOrNone rows) [] := by
  unfold scalarOneOrNone
  split <;> simp

theorem inside_flushUpdate (t : Table) (q : Row t → Bool) (f : Row t → Row t) :
    Inside (flushUpdate t q f) [.update t] := by
  simp [flushUpdate,updateRows]

theorem inside_insertRow (t : Table) (row : Row t) : Inside (insertRow t row) [.insert t] := by
  simp only [insertRow,sql,Program.monad_bind,Program.call_bind,Program.pure_bind]
  refine ⟨by simp,fun r => ?_⟩
  cases r <;> simp

theorem inside_utcNow : Inside utcNow [.clock] := by
  simp [utcNow]

theorem inside_commit : Inside commit [.commit] := by
  simp [commit]

section BruteForce

open BruteForceProtectionService

theorem inside_assertNotLocked (d : Deployment) (scope : Scope) (identifier : String) :
    Inside (assertNotLocked d scope identifier) [.redisRead .lock] := by
  simp [assertNotLocked,redisExists,redisTtl,lockKey]

theorem inside_recordFailure (d : Deployment) (scope : Scope) (identifier : String) :
    Inside (recordFailure d scope identifier) [.redisWrite .counter,.redisWrite .lock] := by
  simp [recordFailure,redisIncr,redisExpire,redisSet,redisDelete,failKey,lockKey]
  intro r
  split
  · simp
    split <;> simp
  · simp

theorem inside_clearFailures (d : Deployment) (scope : Scope) (identifier : String) :
    Inside (clearFailures d scope identifier) [.redisWrite .counter,.redisWrite .lock] := by
  simp [clearFailures,redisDelete,failKey,lockKey]

end BruteForce

section Sign

open JWTService RefreshTokenService

theorem inside_decodeAndValidate (d : Deployment) (token : RawToken) (type : TokenType) :
    Inside (decodeAndValidate d token type) [.clock] := by
  cases token with
  | garbage text => trivial
  | signed payload encoding =>
    refine inside_bind inside_utcNow fun now => ?_
    cases refusal d payload type now <;> trivial

theorem inside_refreshIds (claims : TokenClaims) : Inside (refreshIds claims) [] := by
  unfold refreshIds
  split
  · split <;> simp
  · simp

theorem inside_issueAccessToken (d : Deployment) (subject sessionId : UUID) :
    Inside (issueAccessToken d subject sessionId) [.clock,.draw,.sign] := by
  simp [issueAccessToken,utcNow,uuid4,draw]

theorem inside_issueRefreshToken (d : Deployment) (subject sessionId familyId jti : UUID) :
    Inside (issueRefreshToken d subject sessionId familyId jti) [.clock,.sign] := by
  simp [issueRefreshToken,utcNow]

theorem inside_hashPassword (d : Deployment) (password : String) :
    Inside (PasswordService.hashPassword d password) [.draw] := by
  have hv : Inside (PasswordService.validatePasswordPolicy d password) [.draw] := by
    simp [PasswordService.validatePasswordPolicy]
  exact inside_bind hv fun _ => by simp [PasswordService.hash,draw]

theorem inside_logEvent (d : Deployment) (eventType outcome : String)
    (actorUserId targetUserId : Option UUID) (ipAddress userAgent : Option String)
    (payload : List (String×PyValue)) :
    Inside (AuditService.logEvent d eventType outcome actorUserId targetUserId ipAddress userAgent
      payload) [.insert .auditEvents] := inside_insertRow _ _

theorem inside_markAccessSessionRevoked (d : Deployment) (sessionId : UUID) :
    Inside (markAccessSessionRevoked d sessionId) [.redisWrite .marker] := by
  simp [markAccessSessionRevoked,redisSet]

theorem inside_markAccessSessionsRevoked (d : Deployment) (sessionIds : List UUID) :
    Inside (markAccessSessionsRevoked d sessionIds) [.redisWrite .marker] := by
  induction sessionIds with
  | nil => simp [markAccessSessionsRevoked]
  | cons sessionId rest ih =>
    exact inside_bind (inside_markAccessSessionRevoked d sessionId) fun _ => ih

end Sign

section Users

theorem inside_load (q : User → Bool) :
    Inside (UserRepository.load q) [.select .users,.select .twoFactorSecrets,
      .select .backupCodes] := by
  simp only [UserRepository.load,selectRows,sql,Program.monad_bind,Program.call_bind,
    Program.pure_bind]
  refine ⟨by simp,fun rows => inside_bind ((inside_scalarOneOrNone rows).widen rfl) fun row => ?_⟩
  cases row <;> simp

theorem inside_createUser (d : Deployment) (email : String) (passwordHash : PasswordHash) :
    Inside (UserRepository.create d email passwordHash) [.draw,.insert .users] := by
  simp only [UserRepository.create,uuid4,draw,external,Program.monad_bind,Program.call_bind,
    Program.monad_pure,Program.pure_bind]
  exact ⟨by simp,fun n => inside_bind ((inside_insertRow _ _).widen rfl) fun _ => trivial⟩

end Users

section Sessions

open SessionRepository

theorem inside_createSession (userId familyId : UUID) (ipAddress userAgent : Option String) :
    Inside (create userId familyId ipAddress userAgent) [.draw,.insert .userSessions] := by
  simp only [create,uuid4,draw,external,Program.monad_bind,Program.call_bind,Program.monad_pure,
    Program.pure_bind]
  exact ⟨by simp,fun n => inside_bind ((inside_insertRow _ _).widen rfl) fun _ => trivial⟩

theorem inside_revokeSessionsWhere (q : UserSession → Bool) :
    Inside (revokeWhere q) [.clock,.update .userSessions] := by
  simp [revokeWhere,utcNow,updateRows]

theorem inside_touchFamily (familyId : UUID) :
    Inside (touchFamily familyId) [.clock,.update .userSessions] := by
  simp [touchFamily,utcNow,updateRows]

theorem inside_isFamilyActive (familyId : UUID) :
    Inside (isFamilyActive familyId) [.select .userSessions] := by
  simp [isFamilyActive,selectRows]

theorem inside_listActiveSessionIdsForUser (userId : UUID) :
    Inside (listActiveSessionIdsForUser userId) [.select .userSessions] := by
  simp [listActiveSessionIdsForUser,selectRows]

end Sessions

section TwoFactor

open TwoFactorRepository TwoFactorService

/-- Accesses of a second-factor check. -/
def factorCheck : List Access :=
  [.clock,.observe,.select .twoFactorSecrets,.lock .backupCodes]

/-- Accesses of the flush of an accepted factor. -/
def factorFlush : List Access := [.update .twoFactorSecrets,.update .backupCodes]

theorem inside_getSecret (user : LoadedUser) :
    Inside (getSecret user) [.select .twoFactorSecrets] := by
  simp only [getSecret,selectRows,sql,Program.monad_bind,Program.call_bind,Program.pure_bind]
  exact ⟨by simp,fun rows =>
    inside_bind ((inside_scalarOneOrNone rows).widen rfl) fun _ => trivial⟩

theorem inside_getSecretForUpdate (user : LoadedUser) :
    Inside (getSecretForUpdate user) [.lock .twoFactorSecrets] := by
  simp only [getSecretForUpdate,selectRowsForUpdate,sql,Program.monad_bind,Program.call_bind,
    Program.pure_bind]
  exact ⟨by simp,fun rows =>
    inside_bind ((inside_scalarOneOrNone rows).widen rfl) fun _ => trivial⟩

theorem inside_verifyTotpCode (d : Deployment) (secret : TotpSecret) (code : String) :
    Inside (verifyTotpCode d secret code) [.clock] := by
  simp [verifyTotpCode,utcNow]
  intro now h
  split <;> simp

theorem inside_observe (observation : Observation) :
    Inside (observe observation) [.observe] := by
  simp [observe]

theorem inside_listBackupCodesForUpdate (user : LoadedUser) :
    Inside (listBackupCodesForUpdate user) [.lock .backupCodes] := by
  simp [listBackupCodesForUpdate,selectRowsForUpdate]

theorem inside_rejectCode {α : Type} (user : LoadedUser) :
    Inside (rejectCode user : Action α) [.observe] := by
  simp [rejectCode,observe]

theorem inside_verifyTotp (d : Deployment) (user : LoadedUser) (code : String) :
    Inside (verifyTotp d user code) factorCheck := by
  refine inside_bind ((inside_getSecret user).widen rfl) fun found => ?_
  cases found with
  | none => simp
  | some record =>
    simp only [Program.monad_throw,Program.monad_bind]
    split
    · simp
    · refine inside_bind ((inside_verifyTotpCode d _ code).widen rfl) fun result => ?_
      simp only [Program.within_ite]
      exact ⟨fun _ => (inside_rejectCode user).widen rfl,fun _ =>
        ⟨fun _ => (inside_rejectCode user).widen rfl,fun _ => by simp [observe,factorCheck]⟩⟩

theorem inside_verifyBackupCode (user : LoadedUser) (code : String) :
    Inside (verifyBackupCode user code) factorCheck := by
  simp only [verifyBackupCode,listBackupCodesForUpdate,selectRowsForUpdate,sql,
    Program.monad_bind,Program.call_bind,Program.pure_bind,Program.monad_pure]
  refine ⟨by simp [factorCheck],fun rows => ?_⟩
  dsimp only
  split
  · exact (inside_rejectCode user).widen rfl
  · simp [observe,utcNow,factorCheck]

theorem inside_verifyForLogin (d : Deployment) (user : LoadedUser) (totp backup : Option String) :
    Inside (verifyForLogin d user totp backup) factorCheck := by
  simp only [verifyForLogin,Program.monad_throw,Program.monad_bind]
  split
  · simp
  · split
    · exact inside_verifyTotp d user _
    · exact inside_verifyBackupCode user _
    · simp

theorem inside_flushFactor (factor : PendingFactor) :
    Inside (flushFactor factor) factorFlush := by
  cases factor with
  | lastUsedTimecode => exact (inside_flushUpdate _ _ _).widen rfl
  | backupCodeUsed => exact (inside_flushUpdate _ _ _).widen rfl

theorem inside_upsertSecret (user : LoadedUser) (secret : EncryptedSecret) :
    Inside (upsertSecret user secret) [.draw,.select .twoFactorSecrets,
      .insert .twoFactorSecrets,.update .twoFactorSecrets] := by
  refine inside_bind ((inside_getSecret user).widen rfl) fun found => ?_
  cases found with
  | none =>
    simp only [uuid4,draw,external,Program.monad_bind,Program.call_bind,Program.pure_bind]
    exact ⟨by simp,fun n => (inside_insertRow _ _).widen rfl⟩
  | some record => exact (inside_flushUpdate _ _ _).widen rfl

theorem inside_randomCharacters (n : ℕ) : Inside (randomCharacters n) [.random] := by
  induction n with
  | zero => simp [randomCharacters]
  | succ n ih =>
    simp only [randomCharacters,external,Program.monad_bind,Program.call_bind,Program.pure_bind]
    exact ⟨by simp,fun _ => inside_bind ih fun _ => trivial⟩

theorem inside_generatePlainBackupCodes (n : ℕ) :
    Inside (generatePlainBackupCodes n) [.random] := by
  induction n with
  | zero => simp [generatePlainBackupCodes]
  | succ n ih =>
    exact inside_bind (inside_randomCharacters 4) fun _ =>
      inside_bind (inside_randomCharacters 4) fun _ => inside_bind ih fun _ => trivial

theorem inside_hashBackupCodes (codes : List String) : Inside (hashBackupCodes codes) [.draw] := by
  induction codes with
  | nil => simp [hashBackupCodes]
  | cons code rest ih =>
    simp only [hashBackupCodes,PasswordService.hash,draw,external,Program.monad_bind,
      Program.call_bind,Program.pure_bind,Program.monad_pure]
    exact ⟨by simp,fun _ => inside_bind ih fun _ => trivial⟩

theorem inside_insertBackupCodes (userId : UUID) (hashes : List PasswordHash) :
    Inside (insertBackupCodes userId hashes) [.draw,.insert .backupCodes] := by
  induction hashes with
  | nil => simp [insertBackupCodes]
  | cons codeHash rest ih =>
    simp only [insertBackupCodes,uuid4,draw,external,Program.monad_bind,Program.call_bind,
      Program.pure_bind,Program.monad_pure]
    exact ⟨by simp,fun _ => inside_bind ((inside_insertRow _ _).widen rfl) fun _ => ih⟩

theorem inside_replaceBackupCodes (userId : UUID) (hashes : List PasswordHash) :
    Inside (replaceBackupCodes userId hashes) [.draw,.delete .backupCodes,
      .insert .backupCodes] := by
  simp only [replaceBackupCodes,deleteRows,sql,Program.monad_bind,Program.call_bind,
    Program.pure_bind]
  exact ⟨by simp,fun _ => (inside_insertBackupCodes userId hashes).widen rfl⟩

/-- Accesses of the flows that change second factors, apart from commits. -/
def factorChange : List Access :=
  [.clock,.draw,.random,.observe,.select .twoFactorSecrets,.lock .twoFactorSecrets,
    .insert .twoFactorSecrets,.update .twoFactorSecrets,.delete .twoFactorSecrets,
    .lock .backupCodes,.insert .backupCodes,.update .backupCodes,.delete .backupCodes,
    .update .users]

theorem inside_createSetup (d : Deployment) (user : LoadedUser) :
    Inside (createSetup d user) factorChange := by
  simp only [createSetup,draw,external,Program.monad_throw,Program.monad_bind,
    Program.monad_pure,Program.call_bind,Program.pure_bind]
  split
  · simp
  · exact ⟨by simp [factorChange],fun _ =>
      inside_bind ((inside_upsertSecret user _).widen rfl) fun _ =>
      inside_bind ((inside_generatePlainBackupCodes 10).widen rfl) fun codes =>
      inside_bind ((inside_hashBackupCodes codes).widen rfl) fun hashes =>
      inside_bind ((inside_replaceBackupCodes _ hashes).widen rfl) fun _ => trivial⟩

theorem inside_enable (d : Deployment) (user : LoadedUser) (code : String) :
    Inside (enable d user code) factorChange := by
  simp only [enable,Program.monad_throw,Program.monad_bind]
  split
  · simp
  · refine inside_bind ((inside_getSecretForUpdate user).widen rfl) fun found => ?_
    cases found with
    | none => simp
    | some record =>
      refine inside_bind ((inside_verifyTotpCode d _ code).widen rfl) fun result => ?_
      split
      · simp
      · simp only [observe,utcNow,external,Program.pure_bind,Program.call_bind]
        exact ⟨by simp [factorChange],fun _ => ⟨by simp [factorChange],fun _ =>
          inside_bind ((inside_flushUpdate _ _ _).widen rfl) fun _ =>
          (inside_flushUpdate _ _ _).widen rfl⟩⟩

theorem inside_disable (d : Deployment) (user : LoadedUser) (totp backup : Option String) :
    Inside (disable d user totp backup) factorChange := by
  refine inside_bind ((inside_verifyForLogin d user totp backup).widen rfl) fun factor =>
    inside_bind ((inside_flushFactor factor).widen rfl) fun _ => inside_bind ?_ fun _ =>
    (inside_flushUpdate _ _ _).widen rfl
  simp [deleteTwoFactorData,deleteRows,factorChange]

theorem inside_regenerateBackupCodes (d : Deployment) (user : LoadedUser)
    (totp backup : Option String) :
    Inside (regenerateBackupCodes d user totp backup) factorChange :=
  inside_bind ((inside_verifyForLogin d user totp backup).widen rfl) fun factor =>
  inside_bind ((inside_generatePlainBackupCodes 10).widen rfl) fun codes =>
  inside_bind ((inside_hashBackupCodes codes).widen rfl) fun hashes =>
  inside_bind ((inside_flushFactor factor).widen rfl) fun _ =>
  inside_bind ((inside_replaceBackupCodes _ hashes).widen rfl) fun _ => trivial

end TwoFactor

section Challenges

open AuthService

theorem inside_createLoginChallenge (d : Deployment) (userId : UUID) (ip : Option String) :
    Inside (createLoginChallenge d userId ip) [.draw,.redisWrite .challenge] := by
  simp [createLoginChallenge,uuid4,draw,redisSet]
  intro n
  split <;> simp

theorem inside_getLoginChallenge (challengeId : String) :
    Inside (getLoginChallenge challengeId) [.redisRead .challenge] := by
  simp [getLoginChallenge,redisGet]
  intro value
  split <;> simp

theorem inside_deleteLoginChallenge (challengeId : String) :
    Inside (deleteLoginChallenge challengeId) [.redisWrite .challenge] := by
  simp [deleteLoginChallenge,redisDelete]

theorem inside_refuse {α : Type} (d : Deployment) (userId : Option UUID) (ip ua : Option String)
    (payload : List (String×PyValue)) (failure : Failure) :
    Inside (refuse d userId ip ua payload failure : Action α)
      [.insert .auditEvents,.commit] :=
  inside_bind ((inside_logEvent _ _ _ _ _ _ _ _).widen rfl) fun _ => by simp [commit]

theorem inside_recordAccountFailure (d : Deployment) (email : String)
    (user : Option LoadedUser) :
    Inside (recordAccountFailure d email user)
      [.redisWrite .counter,.redisWrite .lock,.update .users] := by
  cases user with
  | none => trivial
  | some user =>
    refine inside_bind ((inside_recordFailure _ _ _).widen rfl) fun _ => ?_
    simp only [Program.within_ite]
    exact ⟨fun _ => inside_bind ((inside_flushUpdate _ _ _).widen rfl) fun _ => trivial,
      fun _ => trivial⟩

theorem inside_rejectPassword (d : Deployment) (user : Option LoadedUser)
    (email identifier : String) (ip ua : Option String) :
    Inside (rejectPassword d user email identifier ip ua)
      [.redisWrite .counter,.redisWrite .lock,.update .users,.insert .auditEvents,.commit] :=
  inside_bind ((inside_recordFailure _ _ _).widen rfl) fun _ =>
  inside_bind ((inside_recordAccountFailure _ _ _).widen rfl) fun _ =>
  inside_bind ((inside_logEvent _ _ _ _ _ _ _ _).widen rfl) fun _ => by simp [commit]

end Challenges

section Resets

open PasswordResetService

theorem inside_recordResetFailure (d : Deployment) (identifier account : String)
    (user : Option LoadedUser) :
    Inside (recordResetFailure d identifier account user)
      [.redisWrite .counter,.redisWrite .lock,.update .users,.commit] := by
  refine inside_bind ((inside_recordFailure _ _ _).widen rfl) fun _ =>
    inside_bind ((inside_recordFailure _ _ _).widen rfl) fun _ => ?_
  cases user with
  | none => trivial
  | some user =>
    simp only [Program.within_ite]
    exact ⟨fun _ => inside_bind ((inside_flushUpdate _ _ _).widen rfl) fun _ => by
      simp [commit],fun _ => trivial⟩

theorem inside_refuseCode (d : Deployment) (identifier account : String)
    (user : Option LoadedUser) :
    Inside (refuseCode d identifier account user)
      [.redisWrite .counter,.redisWrite .lock,.update .users,.commit] :=
  inside_bind (inside_recordResetFailure d identifier account user) fun _ => trivial

theorem inside_getActiveForUserByHash (userId : UUID) (tokenHash : Hmac String) :
    Inside (PasswordResetRepository.getActiveForUserByHash userId tokenHash)
      [.lock .passwordResetTokens] := by
  simp only [PasswordResetRepository.getActiveForUserByHash,selectRowsForUpdate,sql,
    Program.monad_bind,Program.call_bind,Program.pure_bind]
  exact ⟨by simp,fun rows => (inside_scalarOneOrNone rows).widen rfl⟩

/-- Accesses of a request for a reset code. -/
def resetRequest : List Access :=
  [.clock,.draw,.random,.mail,.select .users,.select .twoFactorSecrets,.select .backupCodes,
    .update .passwordResetTokens,.insert .passwordResetTokens,.insert .auditEvents,.commit,
    .rollback]

theorem inside_failDelivery (user : Instance LoadedUser) :
    Inside (failDelivery user) resetRequest := by
  rw [failDelivery_eq]
  simp [rollback,resetRequest]

theorem inside_requestReset (d : Deployment) (email : String) (ip ua : Option String) :
    Inside (requestReset d email ip ua) resetRequest := by
  refine inside_bind ((inside_load _).widen rfl) fun found => ?_
  cases found with
  | none => simp
  | some user =>
    simp only [Program.monad_throw,Program.monad_bind,Program.monad_pure]
    split
    · simp
    · split
      · split <;> simp
      · simp only [generateCode,utcNow,external,PasswordResetRepository.markActiveForUserUsed,
          updateRows,sql,PasswordResetRepository.create,uuid4,draw,Program.monad_bind,
          Program.monad_pure,Program.call_bind,Program.pure_bind]
        refine ⟨by simp [resetRequest],fun _ => ⟨by simp [resetRequest],fun _ =>
          ⟨by simp [resetRequest],fun _ => ⟨by simp [resetRequest],fun _ =>
          inside_bind ((inside_insertRow _ _).widen rfl) fun _ =>
          ⟨by simp [resetRequest],fun delivery => ?_⟩⟩⟩⟩⟩
        dsimp only
        split
        · exact inside_bind ((inside_logEvent _ _ _ _ _ _ _ _).widen rfl) fun _ => by
            simp [commit,resetRequest]
        · exact inside_bind (by simp [Instance.rollback,rollback,resetRequest])
            fun _ => inside_failDelivery _
        · exact inside_failDelivery _
        · exact inside_failDelivery _
        · trivial

end Resets

section Tokens

open AuthService RefreshTokenService JWTService PasswordResetService

/-- Accesses of the issue of tokens for a new session. -/
def issue : List Access :=
  [.clock,.draw,.sign,.insert .userSessions,.insert .refreshTokens]

theorem inside_issueForUser (d : Deployment) (userId : UUID) (ip ua : Option String) :
    Inside (issueForUser d userId ip ua) issue := by
  have huuid : Inside uuid4 issue := by simp [uuid4,draw,issue]
  exact inside_bind huuid fun _ =>
    inside_bind ((inside_createSession _ _ _ _).widen rfl) fun _ =>
    inside_bind huuid fun _ =>
    inside_bind ((inside_issueRefreshToken _ _ _ _ _).widen rfl) fun _ =>
    inside_bind ((inside_insertRow _ _).widen rfl) fun _ =>
    inside_bind ((inside_issueAccessToken _ _ _).widen rfl) fun _ => trivial

/-- Accesses of a rotation. -/
def rotation : List Access :=
  [.clock,.draw,.sign,.lock .refreshTokens,.insert .refreshTokens,.update .refreshTokens,
    .select .userSessions,.update .userSessions]

theorem inside_exchange (d : Deployment) (record : RefreshToken) (ids : RefreshIds)
    (ip ua : Option String) : Inside (exchange d record ids ip ua) rotation := by
  have huuid : Inside uuid4 rotation := by simp [uuid4,draw,rotation]
  exact inside_bind huuid fun _ =>
    inside_bind ((inside_issueRefreshToken _ _ _ _ _).widen rfl) fun _ =>
    inside_bind (inside_bind (inside_utcNow.widen rfl) fun _ =>
      (inside_flushUpdate _ _ _).widen rfl) fun _ =>
    inside_bind ((inside_insertRow _ _).widen rfl) fun _ =>
    inside_bind ((inside_touchFamily _).widen rfl) fun _ =>
    inside_bind ((inside_issueAccessToken _ _ _).widen rfl) fun _ => trivial

theorem inside_getByJtiForUpdate (jti : UUID) :
    Inside (RefreshTokenRepository.getByJtiForUpdate jti) [.lock .refreshTokens] := by
  simp only [RefreshTokenRepository.getByJtiForUpdate,selectRowsForUpdate,sql,
    Program.monad_bind,Program.call_bind,Program.pure_bind]
  exact ⟨by simp,fun rows => (inside_scalarOneOrNone rows).widen rfl⟩

theorem inside_revokeTokensWhere (q : RefreshToken → Bool) (reason : String) :
    Inside (RefreshTokenRepository.revokeWhere q reason) [.clock,.update .refreshTokens] := by
  simp [RefreshTokenRepository.revokeWhere,utcNow,updateRows]

theorem inside_rotate (d : Deployment) (token : RawToken) (ip ua : Option String) :
    Inside (rotate d token ip ua) rotation := by
  refine inside_bind ((inside_decodeAndValidate d token _).widen rfl) fun claims =>
    inside_bind ((inside_refreshIds claims).widen rfl) fun ids =>
    inside_bind ((inside_getByJtiForUpdate _).widen rfl) fun found => ?_
  cases found with
  | none => trivial
  | some record =>
    simp only [Program.monad_throw,Program.monad_bind]
    split
    · trivial
    · split
      · trivial
      · refine inside_bind ((inside_isFamilyActive _).widen rfl) fun active => ?_
        split
        · trivial
        · refine inside_bind (inside_utcNow.widen rfl) fun now => ?_
          split
          · trivial
          · split
            · exact inside_bind ((inside_revokeTokensWhere _ _).widen rfl) fun _ =>
                inside_bind ((inside_revokeSessionsWhere _).widen rfl) fun _ => trivial
            · exact inside_exchange d record ids ip ua

theorem inside_revoke (d : Deployment) (token : RawToken) (revokeFamily : Bool)
    (reason : String) : Inside (revoke d token revokeFamily reason) rotation := by
  refine inside_bind ((inside_decodeAndValidate d token _).widen rfl) fun claims =>
    inside_bind ((inside_refreshIds claims).widen rfl) fun ids =>
    inside_bind ((inside_getByJtiForUpdate _).widen rfl) fun found => ?_
  cases found with
  | none => trivial
  | some record =>
    simp only [Program.monad_throw,Program.monad_bind]
    split
    · trivial
    · split
      · trivial
      · split
        · trivial
        · split
          · exact inside_bind ((inside_revokeTokensWhere _ _).widen rfl) fun _ =>
              inside_bind ((inside_revokeSessionsWhere _).widen rfl) fun _ => trivial
          · exact inside_bind (inside_utcNow.widen rfl) fun _ => trivial

/-- Accesses of a refresh and of a sign-out. -/
def refresh : List Access := rotation++[.redisWrite .marker,.insert .auditEvents,.commit]

theorem inside_refreshFailed (d : Deployment) (ip ua : Option String) (failure : Failure) :
    Inside (refreshFailed d ip ua failure) refresh := by
  unfold refreshFailed
  split
  · exact inside_bind ((inside_markAccessSessionRevoked d _).widen rfl) fun _ =>
      inside_bind ((inside_logEvent _ _ _ _ _ _ _ _).widen rfl) fun _ =>
      inside_bind (inside_commit.widen rfl) fun _ => trivial
  · exact inside_bind ((inside_logEvent _ _ _ _ _ _ _ _).widen rfl) fun _ =>
      inside_bind (inside_commit.widen rfl) fun _ => trivial
  · trivial

theorem inside_refreshTokens (d : Deployment) (token : RawToken) (ip ua : Option String) :
    Inside (refreshTokens d token ip ua) refresh :=
  inside_bind (Program.within_handle ((inside_rotate d token ip ua).widen rfl)
    (inside_refreshFailed d ip ua)) fun _ =>
  inside_bind ((inside_logEvent _ _ _ _ _ _ _ _).widen rfl) fun _ =>
  inside_bind (inside_commit.widen rfl) fun _ => trivial

theorem inside_flushRevocation (pending : Option PendingRevocation) :
    Inside (flushRevocation pending) [.update .refreshTokens] := by
  cases pending with
  | none => trivial
  | some pending => exact inside_flushUpdate _ _ _

theorem inside_revokeRefreshToken (d : Deployment) (token : RawToken) (revokeFamily : Bool)
    (ip ua : Option String) : Inside (revokeRefreshToken d token revokeFamily ip ua) refresh := by
  refine inside_bind ((inside_revoke d token revokeFamily _).widen rfl) fun result => ?_
  cases result with
  | none =>
    exact inside_bind ((inside_logEvent _ _ _ _ _ _ _ _).widen rfl) fun _ =>
      inside_commit.widen rfl
  | some result =>
    exact inside_bind ((inside_markAccessSessionRevoked d _).widen rfl) fun _ =>
      inside_bind ((inside_flushRevocation _).widen rfl) fun _ =>
      inside_bind ((inside_logEvent _ _ _ _ _ _ _ _).widen rfl) fun _ => inside_commit.widen rfl

/-- Accesses of a password reset. -/
def reset : List Access :=
  [.clock,.draw,.redisRead .lock,.redisWrite .counter,.redisWrite .lock,.redisWrite .marker,
    .select .users,.select .twoFactorSecrets,.select .backupCodes,.select .userSessions,
    .lock .passwordResetTokens,.update .users,.update .passwordResetTokens,
    .update .refreshTokens,.update .userSessions,.insert .auditEvents,.commit]

theorem inside_changePassword (d : Deployment) (user : LoadedUser)
    (record : PasswordResetToken) (now : Instant) (newPassword identifier account : String)
    (ip ua : Option String) :
    Inside (changePassword d user record now newPassword identifier account ip ua) reset :=
  inside_bind ((inside_hashPassword d newPassword).widen rfl) fun _ =>
  inside_bind ((inside_flushUpdate _ _ _).widen rfl) fun _ =>
  inside_bind ((inside_flushUpdate _ _ _).widen rfl) fun _ =>
  inside_bind ((inside_listActiveSessionIdsForUser _).widen rfl) fun ids =>
  inside_bind ((inside_revokeTokensWhere _ _).widen rfl) fun _ =>
  inside_bind ((inside_revokeSessionsWhere _).widen rfl) fun _ =>
  inside_bind ((inside_markAccessSessionsRevoked d ids).widen rfl) fun _ =>
  inside_bind ((inside_clearFailures _ _ _).widen rfl) fun _ =>
  inside_bind ((inside_clearFailures _ _ _).widen rfl) fun _ =>
  inside_bind ((inside_logEvent _ _ _ _ _ _ _ _).widen rfl) fun _ => inside_commit.widen rfl

theorem inside_resetPassword (d : Deployment) (email code newPassword : String)
    (ip ua : Option String) : Inside (resetPassword d email code newPassword ip ua) reset := by
  have hrefuse : ∀ user, Inside (refuseCode d (d.lower email++":"++orUnknown ip)
      (d.lower email) user) reset := fun user => (inside_refuseCode d _ _ user).widen rfl
  refine inside_bind ((inside_assertNotLocked _ _ _).widen rfl) fun _ =>
    inside_bind ((inside_assertNotLocked _ _ _).widen rfl) fun _ =>
    inside_bind ((inside_load _).widen rfl) fun found => ?_
  cases found with
  | none => exact hrefuse none
  | some user =>
    simp only [Program.monad_throw,Program.monad_bind]
    split
    · trivial
    · refine inside_bind ((inside_getActiveForUserByHash _ _).widen rfl) fun record => ?_
      cases record with
      | none => exact hrefuse _
      | some record =>
        dsimp only
        split
        · exact hrefuse _
        · refine inside_bind (inside_utcNow.widen rfl) fun now => ?_
          split
          · exact hrefuse _
          · exact inside_changePassword d user record now newPassword _ _ ip ua

end Tokens

section Endpoints

open Endpoints

/-- Accesses of the check of an access token. -/
def authentication : List Access :=
  [.clock,.redisRead .marker,.select .users,.select .twoFactorSecrets,.select .backupCodes]

theorem inside_getCurrentUser (d : Deployment) (authorization : Authorization) :
    Inside (getCurrentUser d authorization) authentication := by
  refine inside_bind ?_ fun token =>
    inside_bind ((inside_decodeAndValidate d token _).widen rfl) fun claims => ?_
  · cases authorization <;> simp [extractBearerToken]
  · split
    · refine inside_bind ?_ fun _ => inside_bind ((inside_load _).widen rfl) fun found => ?_
      · simp [ensureAccessSessionActive,redisExists,authentication]
      · cases found <;> simp
    · simp

/-- Accesses of the second-factor endpoints. -/
def factorEndpoint : List Access := authentication++factorChange++[.insert .auditEvents,.commit]

theorem inside_completed (d : Deployment) (eventType : String) (user : LoadedUser)
    (ip ua : Option String) :
    Inside (completed d eventType user ip ua) [.insert .auditEvents,.commit] :=
  inside_bind ((inside_logEvent _ _ _ _ _ _ _ _).widen rfl) fun _ => by simp [commit]

theorem inside_setupTwoFactor (d : Deployment) (authorization : Authorization)
    (ip ua : Option String) : Inside (setupTwoFactor d authorization ip ua) factorEndpoint :=
  inside_bind ((inside_getCurrentUser d authorization).widen rfl) fun user =>
  inside_bind ((inside_createSetup d user).widen rfl) fun _ =>
  inside_bind ((inside_completed d _ user ip ua).widen rfl) fun _ => trivial

theorem inside_enableTwoFactor (d : Deployment) (authorization : Authorization) (code : String)
    (ip ua : Option String) : Inside (enableTwoFactor d authorization code ip ua) factorEndpoint :=
  inside_bind ((inside_getCurrentUser d authorization).widen rfl) fun user =>
  inside_bind ((inside_enable d user code).widen rfl) fun _ =>
  (inside_completed d _ user ip ua).widen rfl

theorem inside_disableTwoFactor (d : Deployment) (authorization : Authorization)
    (password : String) (totp backup ip ua : Option String) :
    Inside (disableTwoFactor d authorization password totp backup ip ua) factorEndpoint := by
  refine inside_bind ((inside_getCurrentUser d authorization).widen rfl) fun user => ?_
  simp only [Program.monad_throw,Program.monad_bind]
  split
  · simp
  · exact inside_bind ((inside_disable d user totp backup).widen rfl) fun _ =>
      (inside_completed d _ user ip ua).widen rfl

theorem inside_regenerateBackupCodes' (d : Deployment) (authorization : Authorization)
    (totp backup ip ua : Option String) :
    Inside (regenerateBackupCodes d authorization totp backup ip ua) factorEndpoint :=
  inside_bind ((inside_getCurrentUser d authorization).widen rfl) fun user =>
  inside_bind ((inside_regenerateBackupCodes d user totp backup).widen rfl) fun _ =>
  inside_bind ((inside_completed d _ user ip ua).widen rfl) fun _ => trivial

/-- Accesses of a registration. -/
def registration : List Access :=
  [.draw,.select .users,.select .twoFactorSecrets,.select .backupCodes,.insert .users,
    .insert .auditEvents,.commit]

theorem inside_register (d : Deployment) (email password : String) (ip ua : Option String) :
    Inside (AuthService.register d email password ip ua) registration := by
  refine inside_bind ((inside_load _).widen rfl) fun found => ?_
  simp only [Program.monad_throw,Program.monad_bind]
  split
  · simp
  · exact inside_bind ((inside_hashPassword d password).widen rfl) fun _ =>
      inside_bind ((inside_createUser d email _).widen rfl) fun _ =>
      inside_bind ((inside_logEvent _ _ _ _ _ _ _ _).widen rfl) fun _ => by
        simp [commit,registration]

end Endpoints

section Requests

open AuthService

/-- Accesses of a sign-in. -/
def signIn : List Access :=
  [.redisRead .lock,.redisWrite .counter,.redisWrite .lock,.redisWrite .challenge,
    .select .users,.select .twoFactorSecrets,.select .backupCodes,.update .users,
    .insert .auditEvents,.commit]++issue

theorem inside_grantAccess (d : Deployment) (user : LoadedUser) (email identifier : String)
    (ip ua : Option String) : Inside (grantAccess d user email identifier ip ua) signIn := by
  refine inside_bind ((inside_clearFailures _ _ _).widen rfl) fun _ =>
    inside_bind ((inside_clearFailures _ _ _).widen rfl) fun _ => ?_
  simp only [Program.monad_bind,Program.monad_pure]
  split
  · exact inside_bind ((inside_createLoginChallenge d _ ip).widen rfl) fun _ => trivial
  · exact inside_bind ((inside_issueForUser d _ ip ua).widen rfl) fun _ =>
      inside_bind ((inside_logEvent _ _ _ _ _ _ _ _).widen rfl) fun _ =>
      inside_bind (inside_commit.widen rfl) fun _ => trivial

theorem inside_login (d : Deployment) (email password : String) (ip ua : Option String) :
    Inside (login d email password ip ua) signIn := by
  refine inside_bind ((inside_load _).widen rfl) fun found => ?_
  cases found with
  | none =>
    exact inside_bind ((inside_assertNotLocked _ _ _).widen rfl) fun _ =>
      (inside_rejectPassword _ _ _ _ _ _).widen rfl
  | some user =>
    simp only [Program.monad_throw,Program.monad_bind]
    split
    · trivial
    · refine inside_bind ((inside_assertNotLocked _ _ _).widen rfl) fun _ =>
        inside_bind ((inside_assertNotLocked _ _ _).widen rfl) fun _ => ?_
      split
      · exact (inside_rejectPassword _ _ _ _ _ _).widen rfl
      · split
        · exact (inside_refuse _ _ _ _ _ _).widen rfl
        · exact inside_grantAccess d user _ _ ip ua

/-- Accesses of an answered challenge. -/
def secondStep : List Access :=
  [.observe,.redisRead .lock,.redisRead .challenge,.redisWrite .counter,.redisWrite .lock,
    .redisWrite .challenge,.select .users,.select .twoFactorSecrets,.select .backupCodes,
    .lock .backupCodes,.update .twoFactorSecrets,.update .backupCodes,.insert .auditEvents,
    .commit]++issue

theorem inside_redeemChallenge (d : Deployment) (user : LoadedUser)
    (factor : TwoFactorService.PendingFactor) (challengeId identifier : String)
    (ip ua : Option String) :
    Inside (redeemChallenge d user factor challengeId identifier ip ua) secondStep :=
  inside_bind ((inside_clearFailures _ _ _).widen rfl) fun _ =>
  inside_bind ((inside_deleteLoginChallenge _).widen rfl) fun _ =>
  inside_bind ((inside_flushFactor factor).widen rfl) fun _ =>
  inside_bind ((inside_issueForUser d _ ip ua).widen rfl) fun _ =>
  inside_bind ((inside_logEvent _ _ _ _ _ _ _ _).widen rfl) fun _ =>
  inside_bind (inside_commit.widen rfl) fun _ => trivial

theorem inside_answerChallenge (d : Deployment) (user : LoadedUser)
    (challengeId identifier : String) (totp backup ip ua : Option String) :
    Inside (answerChallenge d user challengeId identifier totp backup ip ua) secondStep := by
  refine inside_bind (Program.within_handle
    ((inside_verifyForLogin d user totp backup).widen rfl) fun failure => ?_) fun factor =>
    inside_redeemChallenge d user factor _ _ ip ua
  simp only [Program.monad_throw,Program.monad_bind]
  split
  · exact inside_bind ((inside_recordFailure _ _ _).widen rfl) fun _ =>
      (inside_refuse _ _ _ _ _ _).widen rfl
  · trivial

theorem inside_verifyLoginChallenge (d : Deployment) (challengeId : String)
    (totp backup ip ua : Option String) :
    Inside (verifyLoginChallenge d challengeId totp backup ip ua) secondStep := by
  refine inside_bind ((inside_assertNotLocked _ _ _).widen rfl) fun _ =>
    inside_bind ((inside_getLoginChallenge _).widen rfl) fun found => ?_
  cases found with
  | none => trivial
  | some challenge =>
    simp only [Program.monad_throw,Program.monad_bind]
    split
    · exact inside_bind ((inside_recordFailure _ _ _).widen rfl) fun _ =>
        inside_bind ((inside_deleteLoginChallenge _).widen rfl) fun _ =>
        (inside_refuse _ _ _ _ _ _).widen rfl
    · split
      · trivial
      · refine inside_bind ((inside_load _).widen rfl) fun found => ?_
        cases found with
        | none => trivial
        | some user =>
          dsimp only
          split
          · exact inside_bind ((inside_deleteLoginChallenge _).widen rfl) fun _ =>
              (inside_refuse _ _ _ _ _ _).widen rfl
          · exact inside_answerChallenge d user _ _ totp backup ip ua

/-- Accesses of a request. -/
def footprint : Request → List Access
  | .register _ _ => registration
  | .login _ _ => signIn
  | .verifyLoginChallenge _ _ _ => secondStep
  | .refreshTokens _ => refresh
  | .revokeRefreshToken _ _ => refresh
  | .requestReset _ => resetRequest
  | .resetPassword _ _ _ => reset
  | .currentSession _ => authentication
  | _ => factorEndpoint

/-- A request stays inside its footprint. -/
theorem inside_respond (d : Deployment) (c : ClientRequest) :
    Inside (respond d c) (footprint c.request) := by
  obtain ⟨request,ip,ua⟩ := c
  cases request with
  | register email password =>
    exact inside_bind (inside_register d email password ip ua) fun _ => trivial
  | login email password =>
    exact inside_bind (inside_login d email password ip ua) fun _ => trivial
  | verifyLoginChallenge challengeId totp backup =>
    exact inside_bind (inside_verifyLoginChallenge d challengeId totp backup ip ua)
      fun _ => trivial
  | refreshTokens token =>
    exact inside_bind (inside_refreshTokens d token ip ua) fun _ => trivial
  | revokeRefreshToken token revokeFamily =>
    exact inside_bind (inside_revokeRefreshToken d token revokeFamily ip ua) fun _ => trivial
  | requestReset email => exact inside_bind (inside_requestReset d email ip ua) fun _ => trivial
  | resetPassword email code newPassword =>
    exact inside_bind (inside_resetPassword d email code newPassword ip ua) fun _ => trivial
  | currentSession authorization =>
    exact inside_bind (inside_getCurrentUser d authorization) fun _ => trivial
  | setupTwoFactor authorization =>
    exact inside_bind (inside_setupTwoFactor d authorization ip ua) fun _ => trivial
  | enableTwoFactor authorization totpCode =>
    exact inside_bind (inside_enableTwoFactor d authorization totpCode ip ua) fun _ => trivial
  | disableTwoFactor authorization password totp backup =>
    exact inside_bind (inside_disableTwoFactor d authorization password totp backup ip ua)
      fun _ => trivial
  | regenerateBackupCodes authorization totp backup =>
    exact inside_bind (inside_regenerateBackupCodes' d authorization totp backup ip ua)
      fun _ => trivial

end Requests

end BackendPlatform.AuthFootprints
