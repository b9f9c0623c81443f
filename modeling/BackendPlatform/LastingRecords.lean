import BackendPlatform.ConcurrentRequests
import BackendPlatform.LastingRows

/-!
# What the authentication service never takes back

Users, refresh tokens, sessions, reset codes and audit events last: under any
interleaving of any requests no committed row of these tables disappears or
changes what identifies it, a revocation or use stays on it, and a revoked
session and an audit event are never written again.
-/

set_option autoImplicit false

namespace BackendPlatform.LastingRecords

open ProgramTrees InterleavedRuns TransactionalTables RowLocking LastingRows
open AuthRecords AuthEffects AuthRepositories AuthServices AuthFlows AuthFootprints
open ConcurrentRequests

/-- A refresh token as it was issued. -/
def asIssued (r : RefreshToken) : RefreshToken :=
  {r with
    rotatedAt := none
    revokedAt := none
    replacedByJti := none
    revocationReason := none}

/-- A session as it was opened. -/
def asOpened (r : UserSession) : UserSession :=
  {r with
    lastSeenAt := none
    revokedAt := none}

/-- A reset code as it was requested. -/
def asRequested (r : PasswordResetToken) : PasswordResetToken := {r with usedAt := none}

/-- A version that may follow a row. -/
def Later : (t : Table) → Row t → Row t → Prop
  | .users,a,b => b.id=a.id ∧ b.email=a.email ∧ b.isActive=a.isActive ∧
      (a.passwordResetBlocked=true → b.passwordResetBlocked=true)
  | .refreshTokens,a,b => asIssued b=asIssued a ∧ (a.rotatedAt≠none → b.rotatedAt≠none) ∧
      (a.revokedAt≠none → b.revokedAt≠none)
  | .userSessions,a,b => asOpened b=asOpened a ∧ (a.revokedAt≠none → b=a)
  | .passwordResetTokens,a,b => asRequested b=asRequested a ∧ (a.usedAt≠none → b.usedAt≠none)
  | .auditEvents,a,b => b=a
  | .twoFactorSecrets,_,_ => True
  | .backupCodes,_,_ => True

/-- The tables whose rows last. Secrets and backup codes are deleted. -/
def Lasting (t : Table) : Prop := t≠.twoFactorSecrets ∧ t≠.backupCodes

instance (t : Table) : Decidable (Lasting t) := inferInstanceAs (Decidable (_ ∧ _))

/-- Every row is a later version of itself. -/
theorem Later.refl (t : Table) (r : Row t) : Later t r r := by
  cases t with
  | users => exact ⟨rfl,rfl,rfl,id⟩
  | refreshTokens => exact ⟨rfl,id,id⟩
  | userSessions => exact ⟨rfl,fun _ => rfl⟩
  | passwordResetTokens => exact ⟨rfl,id⟩
  | auditEvents => exact rfl
  | twoFactorSecrets => trivial
  | backupCodes => trivial

/-- A later version of a later version is a later version. -/
theorem Later.trans (t : Table) (a b c : Row t) (h : Later t a b) (h' : Later t b c) :
    Later t a c := by
  cases t with
  | users =>
    obtain ⟨hid,hemail,hactive,hblocked⟩ := h
    obtain ⟨hid',hemail',hactive',hblocked'⟩ := h'
    exact ⟨hid'.trans hid,hemail'.trans hemail,hactive'.trans hactive,
      fun ha => hblocked' (hblocked ha)⟩
  | refreshTokens =>
    exact ⟨h'.1.trans h.1,fun ha => h'.2.1 (h.2.1 ha),fun ha => h'.2.2 (h.2.2 ha)⟩
  | userSessions =>
    refine ⟨h'.1.trans h.1,fun ha => ?_⟩
    have hab : b=a := h.2 ha
    exact (h'.2 (hab ▸ ha)).trans hab
  | passwordResetTokens => exact ⟨h'.1.trans h.1,fun ha => h'.2 (h.2 ha)⟩
  | auditEvents => exact Eq.trans h' h
  | twoFactorSecrets => trivial
  | backupCodes => trivial

/-- The histories of the service. -/
def recordAgeing : Ageing authSchema := ⟨Lasting,Later,Later.refl,Later.trans⟩

/-- An effect only makes lasting rows older. -/
def Respects : Effect → Prop
  | .external _ => True
  | .sql stmt => recordAgeing.Respects stmt

/-- Every effect of an action only makes lasting rows older. -/
abbrev Ageless {α : Type} (p : Action α) : Prop := p.Within Respects

/-- An access that cannot touch a lasting row. -/
def Harmless : Access → Prop
  | .update t => ¬Lasting t
  | .delete t => ¬Lasting t
  | _ => True

instance : (a : Access) → Decidable (Harmless a)
  | .update t => inferInstanceAs (Decidable ¬Lasting t)
  | .delete t => inferInstanceAs (Decidable ¬Lasting t)
  | .clock | .draw | .random | .sign | .mail | .observe | .redisRead _ | .redisWrite _
  | .select _ | .lock _ | .insert _ | .commit | .rollback => isTrue trivial

section Leaves

variable {α β : Type} {fp : List Access}

/-- Two ageless parts in sequence are ageless. -/
theorem ageless_bind {p : Action α} {f : α → Action β} (hp : Ageless p)
    (hf : ∀ a, Ageless (f a)) : Ageless (p.bind f) := Program.within_bind hp hf

/-- Effects that respect the histories by what they touch. -/
theorem ageless_of_inside {p : Action α} (h : Inside p fp) (hfp : ∀ a∈fp, Harmless a) :
    Ageless p := by
  refine Program.within_mono (fun op hop => ?_) h
  cases op with
  | external op => trivial
  | sql stmt =>
    cases stmt with
    | update t q f =>
      intro hlasting
      exact absurd hlasting (hfp _ (hop (.update t) (by simp [accesses])))
    | delete t q =>
      exact hfp _ (hop (.delete t) (by simp [accesses]))
    | _ => trivial

/-- An UPDATE to later versions is ageless. -/
theorem ageless_flushUpdate {t : Table} {isRow : Row t → Bool} {f : Row t → Row t}
    (h : ∀ r, Later t r (f r)) : Ageless (flushUpdate t isRow f) := by
  refine ⟨fun _ r _ => h r,fun n => ?_⟩
  show Ageless (if n=1 then _ else _)
  split
  · trivial
  · trivial

/-- Reading the clock ages no row. -/
theorem ageless_utcNow : Ageless utcNow := ⟨trivial,fun _ => trivial⟩

/-- A COMMIT ages no row. -/
theorem ageless_commit : Ageless commit := ⟨trivial,fun _ => trivial⟩

/-- Blocking the login keeps the address and the other mark. -/
theorem ageless_flushLoginBlocked (user : LoadedUser) :
    Ageless (UserRepository.flushLoginBlocked user) :=
  ageless_flushUpdate fun _ => ⟨rfl,rfl,rfl,id⟩

/-- Blocking the reset only raises its mark. -/
theorem ageless_flushPasswordResetBlocked (user : LoadedUser) :
    Ageless (UserRepository.flushPasswordResetBlocked user) :=
  ageless_flushUpdate fun _ => ⟨rfl,rfl,rfl,fun _ => rfl⟩

/-- The flag of the second factor may go either way. -/
theorem ageless_flushTwoFactorEnabled (user : LoadedUser) (enabled : Bool) :
    Ageless (UserRepository.flushTwoFactorEnabled user enabled) :=
  ageless_flushUpdate fun _ => ⟨rfl,rfl,rfl,id⟩

/-- A new password keeps the address and the mark of blocked resets. -/
theorem ageless_flushUpdatePassword (user : LoadedUser) (passwordHash : PasswordHash) :
    Ageless (UserRepository.flushUpdatePassword user passwordHash) :=
  ageless_flushUpdate fun _ => ⟨rfl,rfl,rfl,id⟩

/-- A code is used once, at the time it gets. -/
theorem ageless_flushUsed (record : PasswordResetToken) (usedAt : Instant) :
    Ageless (PasswordResetRepository.flushUsed record usedAt) :=
  ageless_flushUpdate fun _ => ⟨rfl,fun _ => Option.some_ne_none usedAt⟩

/-- Retiring the codes that are left dates the unused ones only. -/
theorem ageless_markActiveForUserUsed (userId : UUID) (usedAt : Instant) :
    Ageless (PasswordResetRepository.markActiveForUserUsed userId usedAt) :=
  ⟨fun _ _ _ => ⟨rfl,fun _ => Option.some_ne_none usedAt⟩,fun _ => trivial⟩

/-- A revoked token keeps what it was issued with. -/
theorem ageless_revokeToken (token : RefreshToken) (reason : String) (now : Instant) :
    Ageless (RefreshTokenRepository.revokeToken token reason now) :=
  ageless_flushUpdate fun _ => ⟨rfl,id,fun _ => Option.some_ne_none now⟩

/-- A rotated token keeps what it was issued with. -/
theorem ageless_markRotated (token : RefreshToken) (replacedByJti : UUID) :
    Ageless (RefreshTokenRepository.markRotated token replacedByJti) :=
  ageless_bind ageless_utcNow fun now => ageless_flushUpdate fun _ =>
    ⟨rfl,fun _ => Option.some_ne_none now,fun _ => Option.some_ne_none now⟩

/-- Revoking tokens dates the unrevoked ones only. -/
theorem ageless_revokeTokensWhere (q : RefreshToken → Bool) (reason : String) :
    Ageless (RefreshTokenRepository.revokeWhere q reason) :=
  ageless_bind ageless_utcNow fun now =>
    ⟨fun _ _ _ => ⟨rfl,id,fun _ => Option.some_ne_none now⟩,fun _ => trivial⟩

/-- A session that matches has not been revoked, so no revoked one is written. -/
theorem later_of_active {q : UserSession → Bool} {r r' : UserSession}
    (h : (q r && r.revokedAt.isNone)=true)
    (hsame : asOpened r'=asOpened r) : Later .userSessions r r' := by
  simp only [Bool.and_eq_true,Option.isNone_iff_eq_none] at h
  exact ⟨hsame,fun hrevoked => absurd h.2 hrevoked⟩

/-- Revoking sessions dates the unrevoked ones only. -/
theorem ageless_revokeSessionsWhere (q : UserSession → Bool) :
    Ageless (SessionRepository.revokeWhere q) :=
  ageless_bind ageless_utcNow fun _ =>
    ⟨fun _ _ hq => later_of_active hq rfl,fun _ => trivial⟩

/-- A renewal only moves the time a session was last seen. -/
theorem ageless_touchFamily (familyId : UUID) :
    Ageless (SessionRepository.touchFamily familyId) :=
  ageless_bind ageless_utcNow fun _ =>
    ⟨fun _ _ hq => later_of_active (q := fun s => s.refreshFamilyId==familyId) hq rfl,
      fun _ => trivial⟩

end Leaves

section SignIns

open AuthService

/-- A wrong password is counted, logged and may block the login. -/
theorem ageless_rejectPassword (d : Deployment) (user : Option LoadedUser)
    (email identifier : String) (ip ua : Option String) :
    Ageless (rejectPassword d user email identifier ip ua) := by
  refine ageless_bind (ageless_of_inside (inside_recordFailure d _ _) (by decide)) fun _ =>
    ageless_bind ?_ fun blocked =>
    ageless_bind (ageless_of_inside (inside_logEvent d _ _ _ _ _ _ _) (by decide)) fun _ =>
    ageless_bind ageless_commit fun _ => ?_
  · cases user with
    | none => trivial
    | some user =>
      refine ageless_bind (ageless_of_inside (inside_recordFailure d _ _) (by decide))
        fun attempts => ?_
      simp only [Program.within_ite]
      exact ⟨fun _ => ageless_bind (ageless_flushLoginBlocked user) fun _ => trivial,
        fun _ => trivial⟩
  · simp

/-- Granting access adds rows and ages none. -/
theorem ageless_grantAccess (d : Deployment) (user : LoadedUser) (email identifier : String)
    (ip ua : Option String) : Ageless (grantAccess d user email identifier ip ua) := by
  refine ageless_bind (ageless_of_inside (inside_clearFailures d _ _) (by decide)) fun _ =>
    ageless_bind (ageless_of_inside (inside_clearFailures d _ _) (by decide)) fun _ => ?_
  simp only [Program.monad_bind,Program.monad_pure]
  split
  · exact ageless_bind (ageless_of_inside (inside_createLoginChallenge d _ ip) (by decide))
      fun _ => trivial
  · exact ageless_bind (ageless_of_inside (inside_issueForUser d _ ip ua) (by decide)) fun _ =>
      ageless_bind (ageless_of_inside (inside_logEvent d _ _ _ _ _ _ _) (by decide)) fun _ =>
      ageless_bind ageless_commit fun _ => trivial

/-- A login changes rows to later versions only. -/
theorem ageless_login (d : Deployment) (email password : String) (ip ua : Option String) :
    Ageless (login d email password ip ua) := by
  refine ageless_bind (ageless_of_inside (inside_load _) (by decide)) fun found => ?_
  cases found with
  | none =>
    exact ageless_bind (ageless_of_inside (inside_assertNotLocked d _ _) (by decide)) fun _ =>
      ageless_rejectPassword d _ _ _ ip ua
  | some user =>
    simp only [Program.monad_throw,Program.monad_bind]
    split
    · trivial
    · refine ageless_bind (ageless_of_inside (inside_assertNotLocked d _ _) (by decide)) fun _ =>
        ageless_bind (ageless_of_inside (inside_assertNotLocked d _ _) (by decide)) fun _ => ?_
      split
      · exact ageless_rejectPassword d _ _ _ ip ua
      · split
        · exact ageless_of_inside (inside_refuse d _ _ _ _ _) (by decide)
        · exact ageless_grantAccess d user _ _ ip ua

end SignIns

section Tokens

open AuthService RefreshTokenService JWTService

/-- The exchange rotates one token and adds its successor. -/
theorem ageless_exchange (d : Deployment) (record : RefreshToken) (ids : RefreshIds)
    (ip ua : Option String) : Ageless (exchange d record ids ip ua) :=
  ageless_bind (p := uuid4) ⟨trivial,fun _ => trivial⟩ fun _ =>
  ageless_bind (ageless_of_inside (inside_issueRefreshToken d _ _ _ _) (by decide)) fun _ =>
  ageless_bind (ageless_markRotated record _) fun _ =>
  ageless_bind (ageless_of_inside (inside_insertRow _ _) (by decide)) fun _ =>
  ageless_bind (ageless_touchFamily _) fun _ =>
  ageless_bind (ageless_of_inside (inside_issueAccessToken d _ _) (by decide)) fun _ => trivial

/-- Revoking a family hits its tokens and its session. -/
theorem ageless_revokeBoth (familyId : UUID) (reason : String) {α : Type} {next : Action α}
    (hnext : Ageless next) : Ageless (do
      RefreshTokenRepository.revokeFamily familyId reason
      SessionRepository.revokeFamily familyId
      next) :=
  ageless_bind (ageless_revokeTokensWhere _ _) fun _ =>
    ageless_bind (ageless_revokeSessionsWhere _) fun _ => hnext

/-- The part `rotate` and `revoke` begin with. -/
theorem ageless_presented (d : Deployment) (token : RawToken) {α : Type}
    {next : RefreshIds → Option RefreshToken → Action α}
    (hnext : ∀ ids found, Ageless (next ids found)) :
    Ageless (do
      let claims ← decodeAndValidate d token .refresh
      let ids ← refreshIds claims
      next ids (←RefreshTokenRepository.getByJtiForUpdate ids.tokenJti)) :=
  ageless_bind (ageless_of_inside (inside_decodeAndValidate d token _) (by decide)) fun claims =>
    ageless_bind (ageless_of_inside (inside_refreshIds claims) (by decide)) fun ids =>
    ageless_bind (ageless_of_inside (inside_getByJtiForUpdate _) (by decide)) fun found =>
    hnext ids found

/-- A rotation changes rows to later versions only. -/
theorem ageless_rotate (d : Deployment) (token : RawToken) (ip ua : Option String) :
    Ageless (rotate d token ip ua) := by
  refine ageless_presented d token fun ids found => ?_
  cases found with
  | none => trivial
  | some record =>
    simp only [Program.monad_throw,Program.monad_bind]
    split
    · trivial
    · split
      · trivial
      · refine ageless_bind (ageless_of_inside (inside_isFamilyActive _) (by decide)) fun _ => ?_
        split
        · trivial
        · refine ageless_bind ageless_utcNow fun now => ?_
          split
          · trivial
          · split
            · exact ageless_revokeBoth _ _ trivial
            · exact ageless_exchange d record ids ip ua

/-- A failed renewal is logged and ages no row. -/
theorem ageless_refreshFailed (d : Deployment) (ip ua : Option String) (failure : Failure) :
    Ageless (refreshFailed d ip ua failure) := by
  unfold refreshFailed
  split
  · exact ageless_bind (ageless_of_inside (inside_markAccessSessionRevoked d _) (by decide))
      fun _ => ageless_bind (ageless_of_inside (inside_logEvent d _ _ _ _ _ _ _) (by decide))
      fun _ => ageless_bind ageless_commit fun _ => trivial
  · exact ageless_bind (ageless_of_inside (inside_logEvent d _ _ _ _ _ _ _) (by decide)) fun _ =>
      ageless_bind ageless_commit fun _ => trivial
  · trivial

/-- A renewal changes rows to later versions only. -/
theorem ageless_refreshTokens (d : Deployment) (token : RawToken) (ip ua : Option String) :
    Ageless (refreshTokens d token ip ua) :=
  ageless_bind (Program.within_handle (ageless_rotate d token ip ua)
    (ageless_refreshFailed d ip ua)) fun _ =>
  ageless_bind (ageless_of_inside (inside_logEvent d _ _ _ _ _ _ _) (by decide)) fun _ =>
  ageless_bind ageless_commit fun _ => trivial

/-- A revocation changes rows to later versions only. -/
theorem ageless_revoke (d : Deployment) (token : RawToken) (revokeFamily : Bool)
    (reason : String) : Ageless (revoke d token revokeFamily reason) := by
  refine ageless_presented d token fun ids found => ?_
  cases found with
  | none => trivial
  | some record =>
    simp only [Program.monad_throw,Program.monad_bind]
    split
    · trivial
    · split
      · trivial
      · split
        · trivial
        · split
          · exact ageless_revokeBoth _ _ trivial
          · exact ageless_bind ageless_utcNow fun _ => trivial

/-- A sign-out changes rows to later versions only. -/
theorem ageless_revokeRefreshToken (d : Deployment) (token : RawToken) (revokeFamily : Bool)
    (ip ua : Option String) : Ageless (revokeRefreshToken d token revokeFamily ip ua) := by
  refine ageless_bind (ageless_revoke d token revokeFamily _) fun result => ?_
  cases result with
  | none =>
    exact ageless_bind (ageless_of_inside (inside_logEvent d _ _ _ _ _ _ _) (by decide)) fun _ =>
      ageless_commit
  | some result =>
    refine ageless_bind (ageless_of_inside (inside_markAccessSessionRevoked d _) (by decide))
      fun _ => ageless_bind ?_ fun _ =>
      ageless_bind (ageless_of_inside (inside_logEvent d _ _ _ _ _ _ _) (by decide)) fun _ =>
      ageless_commit
    cases result.2 with
    | none => trivial
    | some pending => exact ageless_revokeToken _ _ _

end Tokens

section Resets

open PasswordResetService

/-- A requested reset retires the codes there are and adds one. -/
theorem ageless_requestReset (d : Deployment) (email : String) (ip ua : Option String) :
    Ageless (requestReset d email ip ua) := by
  refine ageless_bind (ageless_of_inside (inside_load _) (by decide)) fun found => ?_
  cases found with
  | none => trivial
  | some user =>
    simp only [Program.monad_throw,Program.monad_bind,Program.monad_pure]
    split
    · trivial
    · split
      · split <;> trivial
      · refine ageless_bind (p := generateCode) ⟨trivial,fun _ => trivial⟩ fun code =>
          ageless_bind ageless_utcNow fun now =>
          ageless_bind (ageless_markActiveForUserUsed _ now) fun _ =>
          ageless_bind (ageless_bind (p := uuid4) ⟨trivial,fun _ => trivial⟩ fun _ =>
            ageless_of_inside (inside_insertRow _ _) (by decide)) fun _ =>
          ageless_bind (p := external _) ⟨trivial,fun _ => trivial⟩ fun delivery => ?_
        split
        · exact ageless_bind (ageless_of_inside (inside_logEvent d _ _ _ _ _ _ _) (by decide))
            fun _ => ageless_bind ageless_commit fun _ => trivial
        · exact ⟨trivial,fun _ => ⟨trivial,fun _ => trivial⟩⟩
        · exact ⟨trivial,fun _ => trivial⟩
        · exact ⟨trivial,fun _ => trivial⟩
        · trivial

/-- A wrong code is counted and may block the resets. -/
theorem ageless_refuseCode (d : Deployment) (identifier account : String)
    (user : Option LoadedUser) : Ageless (refuseCode d identifier account user) := by
  refine ageless_bind ?_ fun _ => trivial
  refine ageless_bind (ageless_of_inside (inside_recordFailure d _ _) (by decide)) fun _ =>
    ageless_bind (ageless_of_inside (inside_recordFailure d _ _) (by decide)) fun attempts => ?_
  cases user with
  | none => trivial
  | some user =>
    simp only [Program.within_ite]
    exact ⟨fun _ => ageless_bind (ageless_flushPasswordResetBlocked user) fun _ => ageless_commit,
      fun _ => trivial⟩

/-- A reset uses its code and changes the password. -/
theorem ageless_changePassword (d : Deployment) (user : LoadedUser)
    (record : PasswordResetToken) (now : Instant) (newPassword identifier account : String)
    (ip ua : Option String) :
    Ageless (changePassword d user record now newPassword identifier account ip ua) :=
  ageless_bind (ageless_of_inside (inside_hashPassword d newPassword) (by decide)) fun _ =>
  ageless_bind (ageless_flushUpdatePassword user _) fun _ =>
  ageless_bind (ageless_flushUsed record now) fun _ =>
  ageless_bind (ageless_of_inside (inside_listActiveSessionIdsForUser _) (by decide)) fun ids =>
  ageless_bind (ageless_revokeTokensWhere _ _) fun _ =>
  ageless_bind (ageless_revokeSessionsWhere _) fun _ =>
  ageless_bind (ageless_of_inside (inside_markAccessSessionsRevoked d ids) (by decide)) fun _ =>
  ageless_bind (ageless_of_inside (inside_clearFailures d _ _) (by decide)) fun _ =>
  ageless_bind (ageless_of_inside (inside_clearFailures d _ _) (by decide)) fun _ =>
  ageless_bind (ageless_of_inside (inside_logEvent d _ _ _ _ _ _ _) (by decide)) fun _ =>
  ageless_commit

/-- A completed reset changes rows to later versions only. -/
theorem ageless_resetPassword (d : Deployment) (email code newPassword : String)
    (ip ua : Option String) : Ageless (resetPassword d email code newPassword ip ua) := by
  refine ageless_bind (ageless_of_inside (inside_assertNotLocked d _ _) (by decide)) fun _ =>
    ageless_bind (ageless_of_inside (inside_assertNotLocked d _ _) (by decide)) fun _ =>
    ageless_bind (ageless_of_inside (inside_load _) (by decide)) fun found => ?_
  cases found with
  | none => exact ageless_refuseCode d _ _ none
  | some user =>
    simp only [Program.monad_throw,Program.monad_bind]
    split
    · trivial
    · refine ageless_bind (ageless_of_inside (inside_getActiveForUserByHash _ _) (by decide))
        fun record => ?_
      cases record with
      | none => exact ageless_refuseCode d _ _ _
      | some record =>
        dsimp only
        split
        · exact ageless_refuseCode d _ _ _
        · refine ageless_bind ageless_utcNow fun now => ?_
          split
          · exact ageless_refuseCode d _ _ _
          · exact ageless_changePassword d user record now newPassword _ _ ip ua

end Resets

section Factors

open TwoFactorService Endpoints

/-- Enabling confirms the secret and raises the flag. -/
theorem ageless_enable (d : Deployment) (user : LoadedUser) (code : String) :
    Ageless (enable d user code) := by
  simp only [enable,Program.monad_throw,Program.monad_bind]
  split
  · trivial
  · refine ageless_bind (ageless_of_inside (inside_getSecretForUpdate user) (by decide))
      fun found => ?_
    cases found with
    | none => trivial
    | some record =>
      refine ageless_bind (ageless_of_inside (inside_verifyTotpCode d _ code) (by decide))
        fun result => ?_
      split
      · trivial
      · exact ageless_bind (ageless_of_inside (inside_observe _) (by decide)) fun _ =>
          ageless_bind ageless_utcNow fun now =>
          ageless_bind (ageless_flushTwoFactorEnabled user true) fun _ =>
          ageless_of_inside (inside_flushUpdate _ _ _) (by decide)

/-- Disabling spends the factor, deletes it and lowers the flag. -/
theorem ageless_disable (d : Deployment) (user : LoadedUser) (totp backup : Option String) :
    Ageless (disable d user totp backup) :=
  ageless_bind (ageless_of_inside (inside_verifyForLogin d user totp backup) (by decide))
    fun factor => ageless_bind (ageless_of_inside (inside_flushFactor factor) (by decide))
    fun _ => ageless_bind (p := TwoFactorRepository.deleteTwoFactorData _)
      ⟨fun h => h.2 rfl,fun _ => ⟨fun h => h.1 rfl,fun _ => trivial⟩⟩ fun _ =>
    ageless_flushTwoFactorEnabled user false

/-- Setup replaces a secret and its codes. -/
theorem ageless_createSetup (d : Deployment) (user : LoadedUser) :
    Ageless (createSetup d user) := by
  simp only [createSetup,Program.monad_throw,Program.monad_bind]
  split
  · trivial
  · exact ageless_bind (p := draw) ⟨trivial,fun _ => trivial⟩ fun _ =>
      ageless_bind (ageless_of_inside (inside_upsertSecret user _) (by decide)) fun _ =>
      ageless_bind (ageless_of_inside (inside_generatePlainBackupCodes 10) (by decide)) fun codes =>
      ageless_bind (ageless_of_inside (inside_hashBackupCodes codes) (by decide)) fun hashes =>
      ageless_bind (ageless_of_inside (inside_replaceBackupCodes _ hashes) (by decide)) fun _ =>
      trivial

/-- Regenerating replaces the codes. -/
theorem ageless_regenerateBackupCodes (d : Deployment) (user : LoadedUser)
    (totp backup : Option String) :
    Ageless (TwoFactorService.regenerateBackupCodes d user totp backup) :=
  ageless_bind (ageless_of_inside (inside_verifyForLogin d user totp backup) (by decide))
    fun factor =>
  ageless_bind (ageless_of_inside (inside_generatePlainBackupCodes 10) (by decide)) fun codes =>
  ageless_bind (ageless_of_inside (inside_hashBackupCodes codes) (by decide)) fun hashes =>
  ageless_bind (ageless_of_inside (inside_flushFactor factor) (by decide)) fun _ =>
  ageless_bind (ageless_of_inside (inside_replaceBackupCodes _ hashes) (by decide)) fun _ =>
  trivial

/-- An endpoint of the second factors: authenticate, act, audit and commit. -/
theorem ageless_endpoint (d : Deployment) (authorization : Authorization) (eventType : String)
    (ip ua : Option String) {α : Type} {act : LoadedUser → Action α}
    (hact : ∀ user, Ageless (act user)) : Ageless (do
      let currentUser ← getCurrentUser d authorization
      let result ← act currentUser
      completed d eventType currentUser ip ua
      return result) :=
  ageless_bind (ageless_of_inside (inside_getCurrentUser d authorization) (by decide)) fun user =>
    ageless_bind (hact user) fun _ =>
    ageless_bind (ageless_of_inside (inside_completed d _ user ip ua) (by decide)) fun _ => trivial

/-- The endpoint adds its audit row to what disabling does. -/
theorem ageless_disableTwoFactor (d : Deployment) (authorization : Authorization)
    (password : String) (totp backup ip ua : Option String) :
    Ageless (disableTwoFactor d authorization password totp backup ip ua) := by
  refine ageless_bind (ageless_of_inside (inside_getCurrentUser d authorization) (by decide))
    fun user => ?_
  simp only [Program.monad_throw,Program.monad_bind]
  split
  · trivial
  · exact ageless_bind (ageless_disable d user totp backup) fun _ =>
      ageless_of_inside (inside_completed d _ user ip ua) (by decide)

end Factors

/-- No request takes back what lasts. -/
theorem ageless_respond (d : Deployment) (c : ClientRequest) : Ageless (respond d c) := by
  obtain ⟨request,ip,ua⟩ := c
  cases request with
  | register email password =>
    exact ageless_bind (ageless_of_inside (inside_register d email password ip ua) (by decide))
      fun _ => trivial
  | login email password =>
    exact ageless_bind (ageless_login d email password ip ua) fun _ => trivial
  | verifyLoginChallenge challengeId totp backup =>
    exact ageless_bind (ageless_of_inside
      (inside_verifyLoginChallenge d challengeId totp backup ip ua) (by decide)) fun _ => trivial
  | refreshTokens token =>
    exact ageless_bind (ageless_refreshTokens d token ip ua) fun _ => trivial
  | revokeRefreshToken token revokeFamily =>
    exact ageless_bind (ageless_revokeRefreshToken d token revokeFamily ip ua) fun _ => trivial
  | requestReset email =>
    exact ageless_bind (ageless_requestReset d email ip ua) fun _ => trivial
  | resetPassword email code newPassword =>
    exact ageless_bind (ageless_resetPassword d email code newPassword ip ua) fun _ => trivial
  | currentSession authorization =>
    exact ageless_bind (ageless_of_inside (inside_getCurrentUser d authorization) (by decide))
      fun _ => trivial
  | setupTwoFactor authorization =>
    exact ageless_bind (ageless_endpoint d authorization _ ip ua
      (ageless_createSetup d)) fun _ => trivial
  | enableTwoFactor authorization totpCode =>
    exact ageless_bind (ageless_bind (ageless_of_inside
      (inside_getCurrentUser d authorization) (by decide)) fun user =>
      ageless_bind (ageless_enable d user totpCode) fun _ =>
      ageless_of_inside (inside_completed d _ user ip ua) (by decide)) fun _ => trivial
  | disableTwoFactor authorization password totp backup =>
    exact ageless_bind (ageless_disableTwoFactor d authorization password totp backup ip ua)
      fun _ => trivial
  | regenerateBackupCodes authorization totp backup =>
    exact ageless_bind (ageless_endpoint d authorization _ ip ua fun user =>
      ageless_regenerateBackupCodes d user totp backup) fun _ => trivial

section Runs

variable {d : Deployment} {env : Environment} {db : Database authSchema} {a b : AuthSystem}

/-- Along every run of requests the lasting tables keep ageing. -/
theorem ageing_reaches (ha : Bounded Respects a) (hsound : recordAgeing.Sound a.shared.tables)
    (h : authMachine.Reaches (Starts d) a b) :
    Bounded Respects b ∧ recordAgeing.Sound b.shared.tables ∧
      recordAgeing.Lasts a.shared.tables b.shared.tables := by
  have htrans : ∀ s₁ s₂ s₃ : Shared, recordAgeing.Lasts s₁.tables s₂.tables →
      recordAgeing.Lasts s₂.tables s₃.tables → recordAgeing.Lasts s₁.tables s₃.tables :=
    fun _ _ _ h h' => h.trans h'
  refine Bounded.reaches (I := fun s : Shared => recordAgeing.Sound s.tables)
    (R := fun s s' : Shared => recordAgeing.Lasts s.tables s'.tables) ?_
    (fun s => .refl _ s.tables) htrans ?_ (fun pid s hs => hs.release pid) ha hsound h
  · rintro sys p ⟨client,rfl⟩
    exact ageless_bind (ageless_respond d client) fun _ => trivial
  · intro pid op choice s reply s' hs hop hf
    cases op with
    | external op =>
      have htables : s'.tables=s.tables := by
        rw [(fire_external hf).2]
      exact hs.same (by rw [htables])
    | sql stmt => exact hs.fire hop (fire_sql hf).1

/-- Under any interleaving of any requests, dead ones included, the committed
users, refresh tokens, sessions, reset codes and audit events stay committed,
in their order and each in a later version. -/
theorem auth_records_last (ha : Reached d env db a) (h : authMachine.Reaches (Starts d) a b) :
    ∀ t, Lasting t → List.SublistForall₂ (Later t) (a.shared.tables.committed t)
      (b.shared.tables.committed t) := by
  have hidle : Bounded Respects (idleSystem env db) := fun i p hp => by cases hp
  have hsound : recordAgeing.Sound (idleTables db) := by
    refine .of_unlocked fun t c hc => ?_
    obtain ⟨r,_,rfl⟩ := List.mem_map.mp hc
    rfl
  obtain ⟨hbound,hsound',_⟩ := ageing_reaches hidle hsound ha
  obtain ⟨_,_,hlasts⟩ := ageing_reaches hbound hsound' h
  exact fun t ht => hlasts.sublist ht

/-- The sample account with an open reset code. -/
def sampleCodes : Database authSchema :=
  Function.update (sampleDatabase [sampleUser] [] []) .passwordResetTokens
    [⟨⟨7⟩,⟨1⟩,⟨"reset","111111"⟩,none,none,seconds 3600,none⟩]

/-- A request for another code. -/
def sampleRequest : List Directive :=
  [.start (fromClient (.requestReset "a@b")),.steps 0 12,.finish 0]

/-- A new code, with the old one still in its row. -/
theorem auth_records_last_reset_code : ∃ sys : AuthSystem,
    (sys.shared.tables.committed .passwordResetTokens).length=2 ∧
      List.SublistForall₂ (Later .passwordResetTokens) (sampleCodes .passwordResetTokens)
        (sys.shared.tables.committed .passwordResetTokens) := by
  have hlength : (follow sampleDeployment (fun _ _ => true) sampleEnvironment sampleCodes
      sampleRequest).map
      (fun sys => (sys.shared.tables.committed .passwordResetTokens).length)=some 2 := by
    decide +kernel
  obtain ⟨sys,hsys,hcount⟩ := Option.map_eq_some_iff.mp hlength
  exact ⟨sys,hcount,auth_records_last (a := idleSystem sampleEnvironment sampleCodes) .refl
    (reached_of_follow hsys) .passwordResetTokens (by decide)⟩

end Runs

end BackendPlatform.LastingRecords
