import BackendPlatform.SignInOrigins

/-!
# Who changes an account

However requests overlap, each value in an account was there at the start, is
one of its registration, or was set by a request that had the right to: a
password by a reset code of the user, a second factor by a code of its secret
under an access token, the end of it also under the password, and a block by
the counted failures. A reset code itself is issued for an account on request.
-/

set_option autoImplicit false

namespace BackendPlatform.AccountChanges

open ProgramTrees InterleavedRuns TransactionalTables RowLocking RowInvariants LastingRows
open AuthRecords AuthEffects AuthRepositories AuthServices AuthFlows AuthFootprints
open ConcurrentRequests EvidencedRequests LastingRecords
open AuthService BruteForceProtectionService TwoFactorService PasswordResetService Endpoints

section Evidence

/-- The request creates the account. -/
structure Registers (d : Deployment) (E : Answers) (client : ClientRequest) (user : User)
    (email password : String) : Prop where
  /-- The request. -/
  request : client.request=.register email password
  /-- The password is an accepted one. -/
  policy : PasswordService.validatePasswordPolicy d password=.pure ()
  /-- No account had the address. -/
  free : E (.sql (.select .users fun u => u.email==d.lower email)) []
  /-- The id was drawn. -/
  drawn : E (.external .draw) user.id.int
  /-- The stored hash is one of the password. -/
  password : PasswordService.verifyPassword password user.passwordHash=true
  /-- The account has the address and nothing else is set. -/
  fresh : user=⟨user.id,d.lower email,user.passwordHash,true,false,false,false⟩

/-- The request has a reset code sent to the user. -/
structure Asks (d : Deployment) (E : Answers) (client : ClientRequest) (user : User)
    (record : PasswordResetToken) (email : String) (code : ℕ) : Prop where
  /-- The request. -/
  request : client.request=.requestReset email
  /-- The user was looked up. -/
  looked : Looked E .users user
  /-- Its address is the one of the request. -/
  address : user.email=d.lower (d.lower email)
  /-- Its reset is not blocked. -/
  allowed : user.passwordResetBlocked=false
  /-- The code was drawn. -/
  drawn : E (.external (.randbelow 1000000)) code
  /-- The row holds its hash. -/
  hash : record.tokenHash=hashToken d (sixDigits code)
  /-- It belongs to the user. -/
  owner : record.userId=user.id
  /-- It was not used. -/
  unused : record.usedAt=none
  /-- It expires after the set time. -/
  expiry : ∃ now, E (.external .now) now ∧
    record.expiresAt=now+seconds d.settings.passwordResetTokenTtlValue

/-- The request has an unused reset code of the user in time, past both locks. -/
structure Resets (d : Deployment) (E : Answers) (client : ClientRequest) (user : User)
    (record : PasswordResetToken) (email code newPassword : String) : Prop where
  /-- The request. -/
  request : client.request=.resetPassword email code newPassword
  /-- The user was looked up. -/
  looked : Looked E .users user
  /-- Its address is the one of the request. -/
  address : user.email=d.lower (d.lower email)
  /-- Its reset is not blocked. -/
  allowed : user.passwordResetBlocked=false
  /-- The address is not locked for this client. -/
  unlocked : E (.external (.redisExists
    (lockKey d .passwordReset (d.lower email++":"++orUnknown client.ipAddress)))) false
  /-- The account is not locked. -/
  accountUnlocked : E (.external (.redisExists
    (lockKey d .passwordResetAccount (d.lower email)))) false
  /-- The code was looked up. -/
  found : Looked E .passwordResetTokens record
  /-- It is a code of the user. -/
  owner : record.userId=user.id
  /-- It is the code of the request. -/
  code : record.tokenHash=hashToken d code
  /-- It was not used. -/
  unused : record.usedAt=none
  /-- It has not expired. -/
  current : ∃ now, E (.external .now) now ∧ now ≤ record.expiresAt
  /-- The new password is an accepted one. -/
  policy : PasswordService.validatePasswordPolicy d newPassword=.pure ()

/-- The wrong password of an account that is not blocked, for the last time
that is allowed. -/
structure MissesPassword (d : Deployment) (E : Answers) (client : ClientRequest) (user : User)
    (email password : String) : Prop where
  /-- The request. -/
  request : client.request=.login email password
  /-- The user was looked up. -/
  looked : Looked E .users user
  /-- Its address is the one of the request. -/
  address : user.email=d.lower (d.lower email)
  /-- It was not blocked. -/
  unblocked : user.loginBlocked=false
  /-- The password is wrong. -/
  wrong : PasswordService.verifyPassword password user.passwordHash=false
  /-- That many failures were counted. -/
  counted : ∃ attempts, d.settings.bruteForceLoginMaxAttempts ≤ attempts ∧
    E (.external (.redisIncr (failKey d .loginAccount (d.lower email)))) (some attempts)

/-- A wrong reset code, for the last time that is allowed. -/
structure MissesCode (d : Deployment) (E : Answers) (client : ClientRequest) (user : User)
    (email code newPassword : String) : Prop where
  /-- The request. -/
  request : client.request=.resetPassword email code newPassword
  /-- The user was looked up. -/
  looked : Looked E .users user
  /-- Its address is the one of the request. -/
  address : user.email=d.lower (d.lower email)
  /-- Its reset was not blocked. -/
  allowed : user.passwordResetBlocked=false
  /-- The code is unknown or has expired. -/
  wrong : E (.sql (.selectForUpdate .passwordResetTokens fun r =>
      r.tokenHash==hashToken d code && r.userId==user.id && r.usedAt.isNone)) [] ∨
    ∃ record now, Looked E .passwordResetTokens record ∧ record.tokenHash=hashToken d code ∧
      E (.external .now) now ∧ record.expiresAt<now
  /-- That many failures were counted. -/
  counted : ∃ attempts, d.settings.bruteForcePasswordResetMaxAttempts ≤ attempts ∧
    E (.external (.redisIncr (failKey d .passwordResetAccount (d.lower email)))) (some attempts)

/-- The request carries an access token of an active user. -/
structure Authenticates (d : Deployment) (E : Answers) (authorization : Authorization)
    (user : User) : Prop where
  /-- The token is valid and its session was not ended. -/
  token : ∃ payload encoding sessionId, authorization=.bearer (.signed payload encoding) ∧
    (∃ now, E (.external .now) now ∧ JWTService.refusal d payload .access now=none) ∧
    UUID.parse payload.sub=some user.id ∧ payload.sid.bind UUID.parse=some sessionId ∧
    E (.external (.redisExists (.accessSessionRevoked sessionId.str))) false
  /-- The user was looked up. -/
  looked : Looked E .users user
  /-- It is active. -/
  active : user.isActive=true

/-- The request confirms a secret of the user with a code of it. -/
structure Enables (d : Deployment) (E : Answers) (client : ClientRequest) (user : User)
    (authorization : Authorization) (totpCode : String) (record : TwoFactorSecret) : Prop where
  /-- The request. -/
  request : client.request=.enableTwoFactor authorization totpCode
  /-- It is one of the user. -/
  authenticated : Authenticates d E authorization user
  /-- There was no second factor. -/
  disabled : user.twoFactorEnabled=false
  /-- The secret was looked up. -/
  looked : Looked E .twoFactorSecrets record
  /-- It is the secret of the user. -/
  owner : record.userId=user.id
  /-- The code is one of the secret for a timecode next to the clock. -/
  code : ∃ now timecode, E (.external .now) now ∧
    timecode∈candidateTimecodes (now/1000000/d.settings.totpIntervalSeconds) ∧
    d.normalize totpCode=d.normalize (d.totpAt record.encryptedSecret.secret timecode)

/-- The request gives the password and the second factor of the user. -/
structure Disables (d : Deployment) (E : Answers) (client : ClientRequest) (user : User)
    (authorization : Authorization) (password : String) (totp backup : Option String) :
    Prop where
  /-- The request. -/
  request : client.request=.disableTwoFactor authorization password totp backup
  /-- It is one of the user. -/
  authenticated : Authenticates d E authorization user
  /-- The password is right. -/
  password : PasswordService.verifyPassword password user.passwordHash=true
  /-- There was a second factor. -/
  enabled : user.twoFactorEnabled=true
  /-- It was given. -/
  factor : Accepts d E user totp backup

/-- A request changes an account. -/
inductive Changes (d : Deployment) (E : Answers) (client : ClientRequest) (row : User) :
    User → Prop
  /-- A new password, which ends a block that was seen. -/
  | password (user : User) (record : PasswordResetToken) (email code newPassword : String)
      (newHash : PasswordHash) (h : Resets d E client user record email code newPassword)
      (hid : user.id=row.id) (hhash : PasswordService.verifyPassword newPassword newHash=true) :
      Changes d E client row {row with
        passwordHash := newHash
        loginBlocked := if user.loginBlocked then false else row.loginBlocked}
  /-- A second factor. -/
  | enabled (user : User) (authorization : Authorization) (totpCode : String)
      (record : TwoFactorSecret) (h : Enables d E client user authorization totpCode record)
      (hid : user.id=row.id) : Changes d E client row {row with twoFactorEnabled := true}
  /-- No second factor. -/
  | disabled (user : User) (authorization : Authorization) (password : String)
      (totp backup : Option String)
      (h : Disables d E client user authorization password totp backup) (hid : user.id=row.id) :
      Changes d E client row {row with twoFactorEnabled := false}
  /-- A blocked sign-in. -/
  | loginBlocked (user : User) (email password : String)
      (h : MissesPassword d E client user email password) (hid : user.id=row.id) :
      Changes d E client row {row with loginBlocked := true}
  /-- A blocked reset. -/
  | resetBlocked (user : User) (email code newPassword : String)
      (h : MissesCode d E client user email code newPassword) (hid : user.id=row.id) :
      Changes d E client row {row with passwordResetBlocked := true}

variable {d : Deployment} {E E' : Answers} {client : ClientRequest} {user row row' : User}
  {record : PasswordResetToken} {email password code newPassword : String}

/-- Evidence of a registration survives further answers. -/
theorem Registers.mono (hle : E≤E') (h : Registers d E client user email password) :
    Registers d E' client user email password :=
  {h with
    free := hle _ _ h.free
    drawn := hle _ _ h.drawn}

/-- Evidence of a requested reset survives further answers. -/
theorem Asks.mono (hle : E≤E') {n : ℕ} (h : Asks d E client user record email n) :
    Asks d E' client user record email n := by
  obtain ⟨now,hnow,hexpiry⟩ := h.expiry
  exact {h with
    looked := h.looked.mono hle
    drawn := hle _ _ h.drawn
    expiry := ⟨now,hle _ _ hnow,hexpiry⟩}

/-- Evidence of a completed reset survives further answers. -/
theorem Resets.mono (hle : E≤E') (h : Resets d E client user record email code newPassword) :
    Resets d E' client user record email code newPassword := by
  obtain ⟨now,hnow,hcurrent⟩ := h.current
  exact {h with
    looked := h.looked.mono hle
    unlocked := hle _ _ h.unlocked
    accountUnlocked := hle _ _ h.accountUnlocked
    found := h.found.mono hle
    current := ⟨now,hle _ _ hnow,hcurrent⟩}

/-- Evidence of a wrong password survives further answers. -/
theorem MissesPassword.mono (hle : E≤E') (h : MissesPassword d E client user email password) :
    MissesPassword d E' client user email password := by
  obtain ⟨attempts,hmany,hcounted⟩ := h.counted
  exact {h with
    looked := h.looked.mono hle
    counted := ⟨attempts,hmany,hle _ _ hcounted⟩}

/-- Evidence of a wrong reset code survives further answers. -/
theorem MissesCode.mono (hle : E≤E') (h : MissesCode d E client user email code newPassword) :
    MissesCode d E' client user email code newPassword := by
  obtain ⟨attempts,hmany,hcounted⟩ := h.counted
  refine {h with
    looked := h.looked.mono hle
    wrong := ?_
    counted := ⟨attempts,hmany,hle _ _ hcounted⟩}
  refine h.wrong.imp (hle _ _) ?_
  rintro ⟨record,now,hlooked,hcode,hnow,hexpired⟩
  exact ⟨record,now,hlooked.mono hle,hcode,hle _ _ hnow,hexpired⟩

/-- Evidence of an access token survives further answers. -/
theorem Authenticates.mono (hle : E≤E') {authorization : Authorization}
    (h : Authenticates d E authorization user) : Authenticates d E' authorization user := by
  obtain ⟨payload,encoding,sessionId,hbearer,⟨now,hnow,hvalid⟩,hsub,hsid,hactive⟩ := h.token
  exact {h with
    token := ⟨payload,encoding,sessionId,hbearer,⟨now,hle _ _ hnow,hvalid⟩,hsub,hsid,
      hle _ _ hactive⟩
    looked := h.looked.mono hle}

/-- Evidence for enabling the second factor survives further answers. -/
theorem Enables.mono (hle : E≤E') {authorization : Authorization} {secret : TwoFactorSecret}
    (h : Enables d E client user authorization code secret) :
    Enables d E' client user authorization code secret := by
  obtain ⟨now,timecode,hnow,hcandidate,hcode⟩ := h.code
  exact {h with
    authenticated := h.authenticated.mono hle
    looked := h.looked.mono hle
    code := ⟨now,timecode,hle _ _ hnow,hcandidate,hcode⟩}

/-- Evidence for disabling the second factor survives further answers. -/
theorem Disables.mono (hle : E≤E') {authorization : Authorization} {totp backup : Option String}
    (h : Disables d E client user authorization password totp backup) :
    Disables d E' client user authorization password totp backup :=
  {h with
    authenticated := h.authenticated.mono hle
    factor := h.factor.mono hle}

/-- A justified change stays justified as answers are added. -/
theorem Changes.mono (hle : E≤E') (h : Changes d E client row row') :
    Changes d E' client row row' := by
  cases h with
  | password user record email code newPassword newHash h hid hhash =>
    exact .password user record email code newPassword newHash (h.mono hle) hid hhash
  | enabled user authorization totpCode record h hid =>
    exact .enabled user authorization totpCode record (h.mono hle) hid
  | disabled user authorization password totp backup h hid =>
    exact .disabled user authorization password totp backup (h.mono hle) hid
  | loginBlocked user email password h hid =>
    exact .loginBlocked user email password (h.mono hle) hid
  | resetBlocked user email code newPassword h hid =>
    exact .resetBlocked user email code newPassword (h.mono hle) hid

/-- No change moves an account. -/
theorem Changes.same (h : Changes d E client row row') : row'.id=row.id := by
  cases h <;> rfl

/-- No change touches the address or the activity flag. -/
theorem Changes.address (h : Changes d E client row row') :
    row'.email=row.email ∧ row'.isActive=row.isActive := by
  cases h <;> exact ⟨rfl,rfl⟩

/-- Only a reset changes a password. -/
theorem Changes.resets (h : Changes d E client row row') (hset : row'.passwordHash≠row.passwordHash) :
    ∃ user record email code newPassword,
      Resets d E client user record email code newPassword ∧ user.id=row.id ∧
      PasswordService.verifyPassword newPassword row'.passwordHash=true := by
  cases h with
  | password user record email code newPassword newHash h hid hhash =>
    exact ⟨user,record,email,code,newPassword,h,hid,hhash⟩
  | _ => exact absurd rfl hset

/-- Only an enable request turns the second factor on. -/
theorem Changes.enables (h : Changes d E client row row')
    (hset : row'.twoFactorEnabled≠row.twoFactorEnabled) (hon : row'.twoFactorEnabled=true) :
    ∃ user authorization totpCode record,
      Enables d E client user authorization totpCode record ∧ user.id=row.id := by
  cases h with
  | enabled user authorization totpCode record h hid =>
    exact ⟨user,authorization,totpCode,record,h,hid⟩
  | disabled => cases hon
  | _ => exact absurd rfl hset

/-- Only a disable request turns the second factor off. -/
theorem Changes.disables (h : Changes d E client row row')
    (hset : row'.twoFactorEnabled≠row.twoFactorEnabled) (hoff : row'.twoFactorEnabled=false) :
    ∃ user authorization password totp backup,
      Disables d E client user authorization password totp backup ∧ user.id=row.id := by
  cases h with
  | disabled user authorization password totp backup h hid =>
    exact ⟨user,authorization,password,totp,backup,h,hid⟩
  | enabled => cases hoff
  | _ => exact absurd rfl hset

/-- Only a wrong password blocks the login. -/
theorem Changes.missesPassword (h : Changes d E client row row')
    (hset : row'.loginBlocked≠row.loginBlocked) (hon : row'.loginBlocked=true) :
    ∃ user email password, MissesPassword d E client user email password ∧ user.id=row.id := by
  cases h with
  | loginBlocked user email password h hid => exact ⟨user,email,password,h,hid⟩
  | password user =>
    refine absurd ?_ hset
    by_cases hseen : user.loginBlocked
    · rw [if_pos hseen] at hon
      cases hon
    · exact if_neg hseen
  | _ => exact absurd rfl hset

/-- Only a reset that saw the block ends it. -/
theorem Changes.unblocks (h : Changes d E client row row')
    (hset : row'.loginBlocked≠row.loginBlocked) (hoff : row'.loginBlocked=false) :
    ∃ user record email code newPassword,
      Resets d E client user record email code newPassword ∧ user.id=row.id ∧
      user.loginBlocked=true := by
  cases h with
  | password user record email code newPassword newHash h hid hhash =>
    refine ⟨user,record,email,code,newPassword,h,hid,?_⟩
    by_contra hseen
    exact hset (if_neg hseen)
  | loginBlocked => cases hoff
  | _ => exact absurd rfl hset

/-- Nothing ends a blocked reset. -/
theorem Changes.missesCode (h : Changes d E client row row')
    (hset : row'.passwordResetBlocked≠row.passwordResetBlocked) :
    row'.passwordResetBlocked=true ∧ ∃ user email code newPassword,
      MissesCode d E client user email code newPassword ∧ user.id=row.id := by
  cases h with
  | resetBlocked user email code newPassword h hid => exact ⟨rfl,user,email,code,newPassword,h,hid⟩
  | _ => exact absurd rfl hset

end Evidence

section Walks

variable {d : Deployment} {K : Conditions} {E : Answers} {client : ClientRequest}

/-- The policy lets a password pass or raises. -/
theorem validatePasswordPolicy_cases (d : Deployment) (password : String) :
    PasswordService.validatePasswordPolicy d password=.pure () ∨
      ∃ e, PasswordService.validatePasswordPolicy d password=.raise e := by
  simp only [PasswordService.validatePasswordPolicy,Program.monad_throw,Program.monad_bind,
    Program.monad_pure]
  split
  · exact .inr ⟨_,rfl⟩
  · split
    · exact .inr ⟨_,rfl⟩
    · split
      · exact .inr ⟨_,rfl⟩
      · exact .inl rfl

/-- A hashed password met the policy and verifies against its hash. -/
theorem keeps_hashPassword (password : String) :
    Keeps K E (PasswordService.hashPassword d password) fun _ passwordHash =>
      PasswordService.validatePasswordPolicy d password=.pure () ∧
        PasswordService.verifyPassword password passwordHash=true := by
  unfold PasswordService.hashPassword
  rcases validatePasswordPolicy_cases d password with hpolicy|⟨e,hpolicy⟩
  · rw [hpolicy]
    exact keeps_call trivial fun _ _ => keeps_pure ⟨rfl,beq_self_eq_true password⟩
  · rw [hpolicy]
    exact keeps_raise e

/-- An account is created for a free address and an accepted password. -/
theorem keeps_register {email password : String}
    (hrequest : client.request=.register email password)
    (hrow : ∀ E' user, Registers d E' client user email password → K.insert E' .users user)
    (hlog : ∀ E' user, Registers d E' client user email password → K.insert E' .auditEvents
      ⟨"auth.register.success","success",some user.id,some user.id,client.ipAddress,
        client.userAgent,AuditService.sanitizePayload d [("email",.str user.email)]⟩) :
    Keeps K E (register d email password client.ipAddress client.userAgent) fun _ _ => True := by
  refine (keeps_load _).bind fun E₁ found _ hfound => ?_
  cases found with
  | some user => exact keeps_raise _
  | none =>
    refine (keeps_hashPassword password).bind fun E₂ passwordHash hle₂ hhash =>
      Keeps.bind (Q := fun E' user => Registers d E' client user email password) ?_
        fun E₃ user _ hregisters => (keeps_logEvent (hlog E₃ user hregisters)).bind
        fun _ _ _ _ => keeps_commit
    refine keeps_uuid4.bind fun E₃ id hle₃ hdrawn => ?_
    have hregisters : Registers d E₃ client
        ⟨id,d.lower email,passwordHash,true,false,false,false⟩ email password :=
      { request := hrequest
        policy := hhash.1
        free := (hle₂.trans hle₃) _ _ (hfound.1 rfl)
        drawn := hdrawn
        password := hhash.2
        fresh := rfl }
    exact (keeps_insertRow (t := .users) (hrow E₃ _ hregisters)).bind fun _ _ hle₄ _ =>
      keeps_pure (hregisters.mono hle₄)

/-- The user was sent its code. -/
def Delivered (E : Answers) (user : User) (code : ℕ) : Prop :=
  E (.external (.sendEmail user.email "Password reset code"
    ("Your 6-digit password reset code is: "++sixDigits code++"\n"))) (.returned (some true))

/-- A reset code is stored and sent for an account whose reset is not blocked. -/
theorem keeps_requestReset {email : String} (hrequest : client.request=.requestReset email)
    (hmark : ∀ E' row row', asRequested row'=asRequested row →
      K.change E' .passwordResetTokens row row')
    (hrow : ∀ E' user record code, Asks d E' client user record email code →
      K.insert E' .passwordResetTokens record)
    (hlog : ∀ E' user record code, Asks d E' client user record email code →
      Delivered E' user code → K.insert E' .auditEvents
        ⟨"auth.password_reset.requested","success",some user.id,some user.id,client.ipAddress,
          client.userAgent,AuditService.sanitizePayload d [("email",.str user.email)]⟩) :
    Keeps K E (requestReset d email client.ipAddress client.userAgent) fun _ _ => True := by
  refine (keeps_load _).bind fun E₁ found _ hfound => ?_
  cases found with
  | none => exact keeps_raise _
  | some user =>
    obtain ⟨hloaded,haddress⟩ := hfound.2 user rfl
    simp only [Program.monad_throw,Program.monad_bind,Program.monad_pure]
    split
    · exact keeps_raise _
    · rename_i hallowed
      split
      · split
        · exact keeps_pure trivial
        · exact keeps_raise _
      · have hcode : Keeps K E₁ generateCode fun E' text =>
            ∃ code, E' (.external (.randbelow 1000000)) code ∧ text=sixDigits code :=
          keeps_call trivial fun code _ => keeps_pure ⟨code,E₁.add_self _ _,rfl⟩
        refine hcode.bind fun E₂ text hle₂ hdrawn => keeps_utcNow.bind fun E₃ now hle₃ hnow => ?_
        obtain ⟨code,hdrawn,rfl⟩ := hdrawn
        refine Keeps.bind (Q := fun _ _ => True) ?_ fun E₄ _ hle₄ _ =>
          Keeps.bind (Q := fun E' _ => ∃ record, Asks d E' client user.row record email code) ?_
            fun E₅ _ _ hasks => keeps_call trivial fun delivery _ => ?_
        · exact keeps_call (fun row _ => hmark _ row _ rfl) fun _ _ => keeps_pure trivial
        · refine keeps_uuid4.bind fun E₅ id hle₅ _ => ?_
          have hlater : E₂≤E₅ := hle₃.trans (hle₄.trans hle₅)
          have hasks : Asks d E₅ client user.row ⟨id,user.row.id,hashToken d (sixDigits code),
              some (normalizeOptional d client.ipAddress),
              some (normalizeOptional d client.userAgent),
              now+seconds d.settings.passwordResetTokenTtlValue,none⟩ email code :=
            { request := hrequest
              looked := hloaded.row.mono (hle₂.trans hlater)
              address := beq_iff_eq.mp haddress
              allowed := Bool.eq_false_iff.mpr hallowed
              drawn := hlater _ _ hdrawn
              hash := rfl
              owner := rfl
              unused := rfl
              expiry := ⟨now,(hle₄.trans hle₅) _ _ hnow,rfl⟩ }
          refine (keeps_insertRow (t := .passwordResetTokens) (hrow E₅ _ _ _ hasks)).mono ?_
          exact fun E' o hq => ⟨hq.1,fun _ _ => ⟨_,hasks.mono hq.1⟩⟩
        · obtain ⟨record,hasks⟩ := hasks
          have hfail : ∀ E' user, Keeps K E' (failDelivery user) fun _ _ => True :=
            fun E' _ => keeps_call trivial fun _ _ => keeps_raise _
          simp only [Program.pure_bind]
          split
          · exact (keeps_logEvent (hlog _ _ record code (hasks.mono (E₅.le_add _ _))
              (E₅.add_self _ _))).bind fun _ _ _ _ =>
              keeps_commit.bind fun _ _ _ _ => keeps_pure trivial
          · exact keeps_call trivial fun _ _ => hfail _ _
          · exact hfail _ _
          · exact hfail _ _
          · exact keeps_raise _

/-- The row for a code, or the answer that there is none. -/
theorem keeps_getActiveForUserByHash (userId : UUID) (tokenHash : Hmac String) :
    Keeps K E (PasswordResetRepository.getActiveForUserByHash userId tokenHash)
      fun E' found => (found=none → E' (.sql (.selectForUpdate .passwordResetTokens fun r =>
          r.tokenHash==tokenHash && r.userId==userId && r.usedAt.isNone)) []) ∧
        ∀ record, found=some record → Looked E' .passwordResetTokens record ∧
          record.tokenHash=tokenHash ∧ record.userId=userId ∧ record.usedAt=none := by
  refine (keeps_selectForUpdate .passwordResetTokens _).bind fun E₁ rows _ hrows =>
    (keeps_scalarOneOrNone rows).mono ?_
  rintro E' o ⟨hle,hfound⟩
  refine ⟨hle,fun found ho => ⟨?_,fun record hrecord => ?_⟩⟩
  · intro hnone
    obtain rfl := (hfound found ho).1 hnone
    exact hle _ _ hrows.1
  · obtain ⟨hlooked,hq⟩ := hrows.2 record ((hfound found ho).2 record hrecord)
    simp only [Bool.and_eq_true,beq_iff_eq,Option.isNone_iff_eq_none] at hq
    exact ⟨hlooked.mono hle,hq.1.1,hq.1.2,hq.2⟩

/-- A password is changed only with an unused code of the user in time, and a
failure is counted only for a wrong one. -/
theorem keeps_resetPassword {email code newPassword : String}
    (hrequest : client.request=.resetPassword email code newPassword)
    (hrefuse : ∀ E' user, E≤E' → (∀ loaded E'' attempts, user=some loaded → E'≤E'' →
        d.settings.bruteForcePasswordResetMaxAttempts ≤ attempts →
        E'' (.external (.redisIncr (failKey d .passwordResetAccount (d.lower email))))
          (some attempts) →
        MissesCode d E'' client loaded.row email code newPassword) →
      Keeps K E' (refuseCode d (d.lower email++":"++orUnknown client.ipAddress) (d.lower email)
        user) fun _ _ => True)
    (hchange : ∀ E' (user : LoadedUser) record now, E≤E' → (∀ E'', E'≤E'' →
        PasswordService.validatePasswordPolicy d newPassword=.pure () →
        Resets d E'' client user.row record email code newPassword) →
      Keeps K E' (changePassword d user record now newPassword
        (d.lower email++":"++orUnknown client.ipAddress) (d.lower email) client.ipAddress
        client.userAgent) fun _ _ => True) :
    Keeps K E (resetPassword d email code newPassword client.ipAddress client.userAgent)
      fun _ _ => True := by
  refine (keeps_assertNotLocked _ _).bind fun E₁ _ hle₁ hunlocked =>
    (keeps_assertNotLocked _ _).bind fun E₂ _ hle₂ haccount =>
    (keeps_load _).bind fun E₃ found hle₃ hfound => ?_
  have hstart : E≤E₃ := hle₁.trans (hle₂.trans hle₃)
  cases found with
  | none =>
    refine hrefuse E₃ none hstart ?_
    rintro _ _ _ ⟨⟩
  | some user =>
    obtain ⟨hloaded,haddress⟩ := hfound.2 user rfl
    simp only [Program.monad_throw,Program.monad_bind]
    split
    · exact keeps_raise _
    · rename_i hallowed
      have hmisses : ∀ E₄, E₃≤E₄ → (E₄ (.sql (.selectForUpdate .passwordResetTokens fun r =>
          r.tokenHash==hashToken d code && r.userId==user.row.id && r.usedAt.isNone)) [] ∨
          ∃ record now, Looked E₄ .passwordResetTokens record ∧
            record.tokenHash=hashToken d code ∧ E₄ (.external .now) now ∧
            record.expiresAt<now) →
          Keeps K E₄ (refuseCode d
            (d.lower email++":"++orUnknown client.ipAddress) (d.lower email) (some user))
            fun _ _ => True := by
        intro E₄ hle₄ hwrong
        refine hrefuse E₄ (some user) (hstart.trans hle₄) ?_
        rintro _ E' attempts ⟨⟩ hle hmany hcounted
        exact {
          request := hrequest
          looked := hloaded.row.mono (hle₄.trans hle)
          address := beq_iff_eq.mp haddress
          allowed := Bool.eq_false_iff.mpr hallowed
          wrong := by
            refine hwrong.imp (hle _ _) ?_
            rintro ⟨record,now,hlooked,hcode,hnow,hexpired⟩
            exact ⟨record,now,hlooked.mono hle,hcode,hle _ _ hnow,hexpired⟩
          counted := ⟨attempts,hmany,hcounted⟩ }
      refine (keeps_getActiveForUserByHash _ _).bind fun E₄ found hle₄ hrecord => ?_
      cases found with
      | none => exact hmisses E₄ hle₄ (.inl (hrecord.1 rfl))
      | some record =>
        obtain ⟨hlooked,hcode,howner,hunused⟩ := hrecord.2 record rfl
        dsimp only
        split
        · rename_i hused
          simp [hunused] at hused
        · refine keeps_utcNow.bind fun E₅ now hle₅ hnow => ?_
          split
          · rename_i hexpired
            exact hmisses E₅ (hle₄.trans hle₅)
              (.inr ⟨record,now,hlooked.mono hle₅,hcode,hnow,hexpired⟩)
          · rename_i hcurrent
            refine hchange E₅ user record now (hstart.trans (hle₄.trans hle₅))
              fun E₆ hle₆ hpolicy => ?_
            have hlater : E₃≤E₆ := hle₄.trans (hle₅.trans hle₆)
            exact {
              request := hrequest
              looked := hloaded.row.mono hlater
              address := beq_iff_eq.mp haddress
              allowed := Bool.eq_false_iff.mpr hallowed
              unlocked := (hle₂.trans (hle₃.trans hlater)) _ _ hunlocked
              accountUnlocked := (hle₃.trans hlater) _ _ haccount
              found := hlooked.mono (hle₅.trans hle₆)
              owner := howner
              code := hcode
              unused := hunused
              current := ⟨now,hle₆ _ _ hnow,not_lt.mp hcurrent⟩
              policy := hpolicy }

/-- A request past this check was told that its session is not revoked. -/
theorem keeps_ensureAccessSessionActive (sessionId : UUID) :
    Keeps K E (ensureAccessSessionActive sessionId) fun E' _ =>
      E' (.external (.redisExists (.accessSessionRevoked sessionId.str))) false := by
  refine keeps_call trivial fun revoked _ => ?_
  cases revoked with
  | true => exact keeps_raise _
  | false => exact keeps_pure (E.add_self _ _)

/-- The current user is the one of an accepted access token. -/
theorem keeps_getCurrentUser (authorization : Authorization) :
    Keeps K E (getCurrentUser d authorization) fun E' user =>
      Loaded E' user ∧ Authenticates d E' authorization user.row := by
  have htoken : Keeps K E (extractBearerToken authorization) fun _ token =>
      authorization=.bearer token := by
    cases authorization with
    | invalid => exact keeps_raise _
    | empty => exact keeps_raise _
    | bearer token => exact keeps_pure rfl
  refine htoken.bind fun E₁ token _ hbearer => (keeps_decodeAndValidate token _).bind
    fun E₂ claims _ hclaims => ?_
  obtain ⟨payload,encoding,now,rfl,hnow,hvalid,hsub,hsid⟩ := hclaims
  dsimp only
  split
  · rename_i userId sessionId huserId hsessionId
    refine (keeps_ensureAccessSessionActive sessionId).bind fun E₃ _ hle₃ hunrevoked =>
      (keeps_load _).bind fun E₄ found hle₄ hfound => ?_
    cases found with
    | none => exact keeps_raise _
    | some user =>
      obtain ⟨hloaded,hid⟩ := hfound.2 user rfl
      have hid : user.row.id=userId := beq_iff_eq.mp hid
      simp only [Program.monad_throw,Program.monad_bind,Program.monad_pure]
      split
      · exact keeps_raise _
      · rename_i hactive
        refine keeps_pure ⟨hloaded,⟨payload,encoding,sessionId,hbearer,?_,?_,?_,?_⟩,hloaded.row,
          by simpa using hactive⟩
        · exact ⟨now,(hle₃.trans hle₄) _ _ hnow,hvalid⟩
        · rw [hid,← hsub,huserId]
        · rw [← hsid,hsessionId]
        · exact hle₄ _ _ hunrevoked
  · exact keeps_raise _

/-- The locked secret was looked up and belongs to the loaded user. -/
theorem keeps_getSecretForUpdate {user : LoadedUser} (hloaded : Loaded E user) :
    Keeps K E (TwoFactorRepository.getSecretForUpdate user) fun E' found => ∀ record,
      found=some record → Looked E' .twoFactorSecrets record ∧ record.userId=user.row.id := by
  refine (keeps_selectForUpdate .twoFactorSecrets _).bind fun E₁ rows hle₁ hrows =>
    (keeps_scalarOneOrNone rows).bind fun E₂ found hle₂ hfound => keeps_pure ?_
  intro record hrecord
  obtain ⟨fetched,hfetched,rfl⟩ := Option.map_eq_some_iff.mp hrecord
  rcases identityMap_eq_or_mem user.twoFactorSecret.toList (fun a b => a.id==b.id) fetched with
    hsame|hknown
  · obtain ⟨hlooked,howner⟩ := hrows.2 fetched (hfound.2 fetched hfetched)
    rw [hsame]
    exact ⟨hlooked.mono hle₂,beq_iff_eq.mp howner⟩
  · obtain ⟨hlooked,howner⟩ := hloaded.secret _ (Option.mem_toList.mp hknown)
    exact ⟨hlooked.mono (hle₁.trans hle₂),howner⟩

/-- Logging a completed step needs the reason of its audit row. -/
theorem keeps_completed {eventType : String} {user : LoadedUser} {ip ua : Option String}
    (h : K.insert E .auditEvents ⟨eventType,"success",some user.row.id,some user.row.id,ip,ua,
      AuditService.sanitizePayload d []⟩) :
    Keeps K E (completed d eventType user ip ua) fun _ _ => True :=
  (keeps_logEvent h).bind fun _ _ _ _ => keeps_commit

/-- Setup needs what its authentication gave and the reason of its audit row. -/
theorem keeps_setupTwoFactor {authorization : Authorization} {ip ua : Option String}
    (hsetup : ∀ E' user, Keeps K E' (createSetup d user) fun _ _ => True)
    (hlog : ∀ E' user, Authenticates d E' authorization user → K.insert E' .auditEvents
      ⟨"auth.2fa.setup.initiated","success",some user.id,some user.id,ip,ua,
        AuditService.sanitizePayload d []⟩) :
    Keeps K E (setupTwoFactor d authorization ip ua) fun _ _ => True :=
  (keeps_getCurrentUser authorization).bind fun _ user _ hcurrent =>
    (hsetup _ user).bind fun E₂ _ hle₂ _ =>
    (keeps_completed (hlog E₂ _ (hcurrent.2.mono hle₂))).bind fun _ _ _ _ => keeps_pure trivial

/-- New backup codes are issued under a second factor of the user. -/
theorem keeps_regenerateBackupCodes {authorization : Authorization}
    {totp backup ip ua : Option String}
    (hfactor : ∀ E' factor, Keeps K E' (flushFactor factor) fun _ _ => True)
    (hreplace : ∀ E' userId hashes, Keeps K E'
      (TwoFactorRepository.replaceBackupCodes userId hashes) fun _ _ => True)
    (hlog : ∀ E' user, Authenticates d E' authorization user → user.twoFactorEnabled=true →
      Accepts d E' user totp backup → K.insert E' .auditEvents
        ⟨"auth.2fa.backup.regenerated","success",some user.id,some user.id,ip,ua,
          AuditService.sanitizePayload d []⟩) :
    Keeps K E (Endpoints.regenerateBackupCodes d authorization totp backup ip ua)
      fun _ _ => True := by
  refine (keeps_getCurrentUser authorization).bind fun E₁ user _ hcurrent =>
    Keeps.bind (Q := fun E' _ => user.row.twoFactorEnabled=true ∧
      Accepts d E' user.row totp backup) ?_ fun E₂ _ hle₂ haccepted =>
    (keeps_completed (hlog E₂ _ (hcurrent.2.mono hle₂) haccepted.1 haccepted.2)).bind
      fun _ _ _ _ => keeps_pure trivial
  exact (keeps_verifyForLogin hcurrent.1 totp backup).bind fun _ factor _ haccepted =>
    (keeps_free (inside_generatePlainBackupCodes 10) rfl).bind fun _ codes hle₃ _ =>
    (keeps_free (inside_hashBackupCodes codes) rfl).bind fun _ hashes hle₄ _ =>
    (hfactor _ factor).bind fun _ _ hle₅ _ => (hreplace _ _ hashes).bind fun _ _ hle₆ _ =>
    keeps_pure ⟨haccepted.1,
      haccepted.2.mono (hle₃.trans (hle₄.trans (hle₅.trans hle₆)))⟩

/-- A second factor is enabled only with a code of its secret. -/
theorem keeps_enableTwoFactor {authorization : Authorization} {totpCode : String}
    (hrequest : client.request=.enableTwoFactor authorization totpCode)
    (huser : ∀ E' user record, Enables d E' client user authorization totpCode record →
      ∀ row : User, row.id=user.id → K.change E' .users row {row with twoFactorEnabled := true})
    (hsecret : ∀ E' row row', K.change E' .twoFactorSecrets row row')
    (hlog : ∀ E' user record, Enables d E' client user authorization totpCode record →
      K.insert E' .auditEvents ⟨"auth.2fa.enabled","success",some user.id,some user.id,
        client.ipAddress,client.userAgent,AuditService.sanitizePayload d []⟩) :
    Keeps K E (enableTwoFactor d authorization totpCode client.ipAddress client.userAgent)
      fun _ _ => True := by
  refine (keeps_getCurrentUser authorization).bind fun E₁ user _ hcurrent =>
    Keeps.bind (Q := fun E' _ => ∃ record, Enables d E' client user.row authorization totpCode
      record) ?_ fun E₂ _ _ henables => ?_
  · obtain ⟨hloaded,hauthenticated⟩ := hcurrent
    simp only [enable,Program.monad_throw,Program.monad_bind]
    split
    · exact keeps_raise _
    · rename_i hdisabled
      refine (keeps_getSecretForUpdate hloaded).bind fun E₂ found hle₂ hfound => ?_
      cases found with
      | none => exact keeps_raise _
      | some record =>
        obtain ⟨hlooked,howner⟩ := hfound record rfl
        refine (keeps_verifyTotpCode _ totpCode).bind fun E₃ result hle₃ hvalid => ?_
        split
        · exact keeps_raise _
        · rename_i hmatches
          obtain ⟨⟨now,hnow,hcandidate⟩,hcode⟩ := hvalid (by simpa using hmatches)
          have henables : Enables d E₃ client user.row authorization totpCode record :=
            { request := hrequest
              authenticated := hauthenticated.mono (hle₂.trans hle₃)
              disabled := Bool.eq_false_iff.mpr hdisabled
              looked := hlooked.mono hle₃
              owner := howner
              code := ⟨now,result.2,hnow,hcandidate,hcode⟩ }
          refine (keeps_observe _).bind fun E₄ _ hle₄ _ => keeps_utcNow.bind fun E₅ _ hle₅ _ =>
            (keeps_flushUpdate fun row hrow => huser E₅ user.row record
              (henables.mono (hle₄.trans hle₅)) row (beq_iff_eq.mp hrow)).bind fun E₆ _ hle₆ _ =>
            (keeps_flushUpdate fun row _ => hsecret E₆ row _).mono fun E' o hq =>
              ⟨hq.1,fun _ _ => ⟨record,henables.mono (hle₄.trans (hle₅.trans (hle₆.trans hq.1)))⟩⟩
  · obtain ⟨record,henables⟩ := henables
    exact keeps_completed (hlog E₂ _ record henables)

/-- It is disabled only with the password and the second factor. -/
theorem keeps_disableTwoFactor {authorization : Authorization} {password : String}
    {totp backup : Option String}
    (hrequest : client.request=.disableTwoFactor authorization password totp backup)
    (hfactor : ∀ E' factor, Keeps K E' (flushFactor factor) fun _ _ => True)
    (huser : ∀ E' user, Disables d E' client user authorization password totp backup →
      ∀ row : User, row.id=user.id → K.change E' .users row {row with twoFactorEnabled := false})
    (hlog : ∀ E' user, Disables d E' client user authorization password totp backup →
      K.insert E' .auditEvents ⟨"auth.2fa.disabled","success",some user.id,some user.id,
        client.ipAddress,client.userAgent,AuditService.sanitizePayload d []⟩) :
    Keeps K E (disableTwoFactor d authorization password totp backup client.ipAddress
      client.userAgent) fun _ _ => True := by
  refine (keeps_getCurrentUser authorization).bind fun E₁ user _ hcurrent => ?_
  obtain ⟨hloaded,hauthenticated⟩ := hcurrent
  simp only [Program.monad_throw,Program.monad_bind]
  split
  · exact keeps_raise _
  · rename_i hpassword
    refine Keeps.bind (Q := fun E' _ => Disables d E' client user.row authorization password totp
      backup) ?_ fun E₂ _ _ hdisables => keeps_completed (hlog E₂ _ hdisables)
    refine (keeps_verifyForLogin hloaded totp backup).bind fun E₂ factor hle₂ haccepted =>
      (hfactor _ factor).bind fun E₃ _ hle₃ _ =>
      Keeps.bind (Q := fun _ _ => True) ?_ fun E₄ _ hle₄ _ => ?_
    · exact keeps_call trivial fun _ _ => keeps_call trivial fun _ _ => keeps_pure trivial
    · have hdisables : Disables d E₂ client user.row authorization password totp backup :=
        { request := hrequest
          authenticated := hauthenticated.mono hle₂
          password := by simpa using hpassword
          enabled := haccepted.1
          factor := haccepted.2 }
      refine (keeps_flushUpdate fun row hrow => huser E₄ user.row
        (hdisables.mono (hle₃.trans hle₄)) row (beq_iff_eq.mp hrow)).mono fun E' o hq =>
        ⟨hq.1,fun _ _ => hdisables.mono (hle₃.trans (hle₄.trans hq.1))⟩

end Walks

section Rules

/-- What has to be known before an account or a reset code is inserted. -/
def Inserts (d : Deployment) (Asked : ClientRequest → Prop) (E : Answers) :
    (t : Table) → Row t → Prop
  | .users,user =>
    ∃ client email password, Asked client ∧ Registers d E client user email password
  | .passwordResetTokens,record =>
    ∃ client user email code, Asked client ∧ Asks d E client user record email code
  | _,_ => True

/-- What has to be known before they are updated. -/
def Updates (d : Deployment) (Asked : ClientRequest → Prop) (E : Answers) :
    (t : Table) → Row t → Row t → Prop
  | .users,row,row' => ∃ client, Asked client ∧ Changes d E client row row'
  | .passwordResetTokens,row,row' => asRequested row'=asRequested row
  | _,_,_ => True

/-- The reasons for accounts and reset codes. -/
def conditions (d : Deployment) (Asked : ClientRequest → Prop) : Conditions where
  insert := Inserts d Asked
  change := Updates d Asked
  challenge _ _ _ := True

/-- A failure event changes no account. -/
theorem logsFailures {d : Deployment} {Asked : ClientRequest → Prop} :
    LogsFailures (conditions d Asked) := fun _ _ _ => trivial

variable {d : Deployment} {Asked : ClientRequest → Prop} {E : Answers} {α : Type}

/-- An access that writes no account and no reset code. -/
def Aside (a : Access) : Prop :=
  a≠.insert .users ∧ a≠.update .users ∧ a≠.insert .passwordResetTokens ∧
    a≠.update .passwordResetTokens

instance (a : Access) : Decidable (Aside a) := inferInstanceAs (Decidable (_ ∧ _))

/-- Actions that leave accounts and reset codes alone. -/
theorem keeps_aside {p : Action α} {fp : List Access} (h : Inside p fp) (hfp : ∀ a∈fp, Aside a) :
    Keeps (conditions d Asked) E p fun _ _ => True := by
  refine keeps_allowed h fun a ha => ?_
  have haside : Aside a := hfp a ha
  cases a with
  | insert t =>
    cases t with
    | users => exact absurd rfl haside.1
    | passwordResetTokens => exact absurd rfl haside.2.2.1
    | _ => exact fun _ _ => trivial
  | update t =>
    cases t with
    | users => exact absurd rfl haside.2.1
    | passwordResetTokens => exact absurd rfl haside.2.2.2
    | _ => exact fun _ _ _ => trivial
  | redisWrite a => exact fun _ _ _ _ => trivial
  | _ => trivial

/-- The flush of a change of the user. -/
theorem keeps_flushUser {user : User} {f : User → User}
    (h : ∀ row : User, row.id=user.id → Updates d Asked E .users row (f row)) :
    Keeps (conditions d Asked) E (flushUpdate .users (fun u => u.id==user.id) f)
      fun _ _ => True :=
  keeps_flushUpdate fun row hrow => h row (beq_iff_eq.mp hrow)

end Rules

section Requests

variable {d : Deployment} {Asked : ClientRequest → Prop} {E : Answers} {client : ClientRequest}

/-- Setup writes secrets and codes, which need no reason here. -/
theorem keeps_createSetup (user : LoadedUser) :
    Keeps (conditions d Asked) E (createSetup d user) fun _ _ => True := by
  simp only [createSetup,Program.monad_throw,Program.monad_bind,Program.monad_pure]
  split
  · exact keeps_raise _
  · refine Keeps.bind (Q := fun _ _ => True) (keeps_call trivial fun _ _ => keeps_pure trivial)
      fun _ _ _ _ => ?_
    exact (keeps_aside (inside_upsertSecret user _) (by decide)).bind fun _ _ _ _ =>
      (keeps_aside (inside_generatePlainBackupCodes 10) (by decide)).bind fun _ codes _ _ =>
      (keeps_aside (inside_hashBackupCodes codes) (by decide)).bind fun _ hashes _ _ =>
      (keeps_aside (inside_replaceBackupCodes _ hashes) (by decide)).bind fun _ _ _ _ =>
      keeps_pure trivial

/-- The block is set only where the password was wrong. -/
theorem keeps_recordAccountFailure {user : Option LoadedUser} {email password : String}
    (hasked : Asked client) (hrequest : client.request=.login email password)
    (hwrong : SignInOrigins.Mistaken d E email password user) :
    Keeps (conditions d Asked) E (recordAccountFailure d (d.lower email) user) fun _ _ => True := by
  cases user with
  | none => exact keeps_pure trivial
  | some user =>
    obtain ⟨hlooked,haddress,hunblocked,hwrong⟩ := hwrong user rfl
    refine (keeps_recordFailure _ _).bind fun E₁ attempts hle hcounted => ?_
    simp only [Program.monad_bind,Program.monad_pure]
    split
    · rename_i hmany
      have hmisses : MissesPassword d E₁ client user.row email password :=
        { request := hrequest
          looked := hlooked.mono hle
          address := haddress
          unblocked := hunblocked
          wrong := hwrong
          counted := ⟨attempts,hmany,hcounted⟩ }
      refine Keeps.bind (Q := fun _ _ => True) (keeps_flushUser fun row hid => ?_)
        fun _ _ _ _ => keeps_pure trivial
      exact ⟨client,hasked,.loginBlocked user.row email password hmisses hid.symm⟩
    · exact keeps_pure trivial

/-- Sign-ins keep to the protocol. -/
theorem keeps_signIn (hasked : Asked client) {email password : String}
    (hrequest : client.request=.login email password) :
    Keeps (conditions d Asked) E (login d email password client.ipAddress client.userAgent)
      fun _ _ => True :=
  SignInOrigins.keeps_login logsFailures hrequest
    (fun _ _ _ hwrong => (SignInOrigins.keeps_rejectPassword logsFailures fun _ hle =>
      keeps_recordAccountFailure hasked hrequest (hwrong.mono hle)).elim)
    fun _ user _ _ => (SignInOrigins.keeps_grantAccess (Q := fun _ _ => True)
      (fun _ _ _ => keeps_aside (inside_createLoginChallenge d _ _) (by decide))
      (fun _ _ _ => keeps_aside (inside_issueForUser d _ _ _) (by decide))
      (fun _ _ _ => trivial) fun _ _ _ _ _ => trivial).mono
      fun _ _ hq => ⟨hq.1,fun _ _ => trivial⟩

/-- A refused code blocks the reset of the user when it was the last one allowed. -/
theorem keeps_refuseCode (hasked : Asked client) (email code newPassword : String)
    {identifier : String} {user : Option LoadedUser}
    (hmisses : ∀ loaded E' attempts, user=some loaded → E≤E' →
      d.settings.bruteForcePasswordResetMaxAttempts ≤ attempts →
      E' (.external (.redisIncr (failKey d .passwordResetAccount (d.lower email))))
        (some attempts) →
      MissesCode d E' client loaded.row email code newPassword) :
    Keeps (conditions d Asked) E (refuseCode d identifier (d.lower email) user)
      fun _ _ => True := by
  refine Keeps.bind (Q := fun _ _ => True) ?_ fun _ _ _ _ => keeps_raise _
  refine (keeps_recordFailure _ _).bind fun E₁ _ hle₁ _ =>
    (keeps_recordFailure _ _).bind fun E₂ attempts hle₂ hcounted => ?_
  cases user with
  | none => exact keeps_pure trivial
  | some user =>
    simp only [Program.monad_bind,Program.monad_pure]
    split
    · rename_i hmany
      refine Keeps.bind (Q := fun _ _ => True) (keeps_flushUser fun row hid => ?_)
        fun _ _ _ _ => keeps_commit
      exact ⟨client,hasked,.resetBlocked user.row email code newPassword
        (hmisses user E₂ attempts rfl (hle₁.trans hle₂) hmany hcounted) hid.symm⟩
    · exact keeps_pure trivial

/-- The password changes only with the evidence of its reset. -/
theorem keeps_changePassword (hasked : Asked client) {user : LoadedUser}
    {record : PasswordResetToken} (email code : String) {newPassword : String} (now : Instant)
    (identifier account : String)
    (hresets : ∀ E', E≤E' → PasswordService.validatePasswordPolicy d newPassword=.pure () →
      Resets d E' client user.row record email code newPassword) (ip ua : Option String) :
    Keeps (conditions d Asked) E
      (changePassword d user record now newPassword identifier account ip ua)
      fun _ _ => True := by
  refine (keeps_hashPassword newPassword).bind fun E₁ newHash hle₁ hhash =>
    Keeps.bind (Q := fun _ _ => True) (keeps_flushUser fun row hid => ?_) fun _ _ _ _ =>
    Keeps.bind (Q := fun _ _ => True) (keeps_flushUpdate fun row _ => rfl) fun _ _ _ _ =>
    (keeps_aside (inside_listActiveSessionIdsForUser _) (by decide)).bind fun _ _ _ _ =>
    (keeps_aside (inside_revokeTokensWhere _ _) (by decide)).bind fun _ _ _ _ =>
    (keeps_aside (inside_revokeSessionsWhere _) (by decide)).bind fun _ _ _ _ =>
    (keeps_aside (inside_markAccessSessionsRevoked d _) (by decide)).bind fun _ _ _ _ =>
    (keeps_clearFailures _ _).bind fun _ _ _ _ => (keeps_clearFailures _ _).bind fun _ _ _ _ =>
    (keeps_logEvent trivial).bind fun _ _ _ _ => keeps_commit
  exact ⟨client,hasked,.password user.row record email code newPassword newHash
    (hresets E₁ hle₁ hhash.1) hid.symm hhash.2⟩

/-- Every request keeps to the protocol. -/
theorem keeps_served {client : ClientRequest} (hasked : Asked client) :
    Keeps (conditions d Asked) E (served d client) fun _ _ => True := by
  refine Keeps.bind (Q := fun _ _ => True) ?_ fun _ _ _ _ => keeps_pure trivial
  have hdone : ∀ {α : Type} {p : Action α} {f : α → Response},
      Keeps (conditions d Asked) E p (fun _ _ => True) →
      Keeps (conditions d Asked) E (p.bind fun a => .pure (f a)) fun _ _ => True :=
    fun h => h.bind fun _ _ _ _ => keeps_pure trivial
  obtain ⟨request,ip,ua⟩ := client
  cases request with
  | register email password => 
    exact hdone (keeps_register rfl (fun _ _ h => ⟨_,email,password,hasked,h⟩) fun _ _ _ => trivial)
  | login email password =>
    exact hdone (keeps_signIn hasked rfl)
  | verifyLoginChallenge challengeId totp backup =>
    exact hdone (keeps_aside (inside_verifyLoginChallenge d challengeId totp backup ip ua)
      (by decide))
  | refreshTokens token =>
    exact hdone (keeps_aside (inside_refreshTokens d token ip ua) (by decide))
  | revokeRefreshToken token revokeFamily =>
    exact hdone (keeps_aside (inside_revokeRefreshToken d token revokeFamily ip ua) (by decide))
  | requestReset email =>
    exact hdone (keeps_requestReset rfl (fun _ _ _ h => h)
      (fun _ user _ code h => ⟨_,user,email,code,hasked,h⟩) fun _ _ _ _ _ _ => trivial)
  | resetPassword email code newPassword =>
    exact hdone (keeps_resetPassword rfl
      (fun _ _ _ hmisses => keeps_refuseCode hasked email code newPassword hmisses)
      fun _ _ _ now _ hresets => keeps_changePassword hasked email code now _ _ hresets ip ua)
  | currentSession authorization =>
    exact hdone (keeps_aside (inside_getCurrentUser d authorization) (by decide))
  | setupTwoFactor authorization =>
    exact hdone (keeps_setupTwoFactor
      (fun _ user => keeps_createSetup user) fun _ _ _ => trivial)
  | enableTwoFactor authorization totpCode =>
    exact hdone (keeps_enableTwoFactor rfl (fun _ user record h row hid =>
      ⟨_,hasked,.enabled user authorization totpCode record h hid.symm⟩) (fun _ _ _ => trivial)
      fun _ _ _ _ => trivial)
  | disableTwoFactor authorization password totp backup =>
    exact hdone (keeps_disableTwoFactor rfl
      (fun _ factor => keeps_aside (inside_flushFactor factor) (by decide))
      (fun _ user h row hid =>
        ⟨_,hasked,.disabled user authorization password totp backup h hid.symm⟩)
      fun _ _ _ => trivial)
  | regenerateBackupCodes authorization totp backup =>
    exact hdone (keeps_regenerateBackupCodes
      (fun _ factor => keeps_aside (inside_flushFactor factor) (by decide))
      (fun _ _ hashes => keeps_aside (inside_replaceBackupCodes _ hashes) (by decide))
      fun _ _ _ _ _ => trivial)

end Requests

section Runs

variable {d : Deployment} {Asked : ClientRequest → Prop} {env : Environment}
  {db : Database authSchema} {history history' : List (Event authSignature)} {sys : AuthSystem}

/-- A request of the run has created the account. -/
def Registered (d : Deployment) (Asked : ClientRequest → Prop)
    (history : List (Event authSignature)) (user : User) : Prop :=
  ∃ pid client email password, Asked client ∧
    Registers d (answered history pid) client user email password

/-- The column has its value since the start or the registration, or a request
of the run has set it. -/
def Stems (d : Deployment) (Asked : ClientRequest → Prop) (db : Database authSchema)
    (history : List (Event authSignature)) {α : Type} (column : User → α) (user : User) : Prop :=
  (∃ old∈db .users, old.id=user.id ∧ column old=column user) ∨
  (∃ new, Registered d Asked history new ∧ new.id=user.id ∧ column new=column user) ∨
  ∃ pid client row row', Asked client ∧ Changes d (answered history pid) client row row' ∧
    row'.id=user.id ∧ column row'≠column row ∧ column row'=column user

/-- The reset code was there at the start, or a request of the run had it sent. -/
def Issued (d : Deployment) (Asked : ClientRequest → Prop) (db : Database authSchema)
    (history : List (Event authSignature)) (record : PasswordResetToken) : Prop :=
  (∃ old∈db .passwordResetTokens, asRequested old=asRequested record) ∨
  ∃ pid client user email code, Asked client ∧
    Asks d (answered history pid) client user (asRequested record) email code

/-- Where the values of rows come from. -/
def Rooted (d : Deployment) (Asked : ClientRequest → Prop) (db : Database authSchema)
    (history : List (Event authSignature)) : (t : Table) → Row t → Prop
  | .users,user => ∀ {α : Type} (column : User → α), Stems d Asked db history column user
  | .passwordResetTokens,record => Issued d Asked db history record
  | _,_ => True

/-- A registered account stays registered as the history grows. -/
theorem Registered.mono (h : history⊆history') {user : User}
    (hregistered : Registered d Asked history user) : Registered d Asked history' user := by
  obtain ⟨pid,client,email,password,hasked,hregisters⟩ := hregistered
  exact ⟨pid,client,email,password,hasked,hregisters.mono (answered_mono h pid)⟩

/-- A value keeps its origin as the history grows. -/
theorem Stems.mono (h : history⊆history') {α : Type} {column : User → α} {user : User}
    (hstems : Stems d Asked db history column user) :
    Stems d Asked db history' column user := by
  rcases hstems with hold|⟨new,hnew,hid,hvalue⟩|⟨pid,client,row,row',hasked,hchanges,hset⟩
  · exact .inl hold
  · exact .inr (.inl ⟨new,hnew.mono h,hid,hvalue⟩)
  · exact .inr (.inr ⟨pid,client,row,row',hasked,hchanges.mono (answered_mono h pid),hset⟩)

/-- An issued code stays issued as the history grows. -/
theorem Issued.mono (h : history⊆history') {record : PasswordResetToken}
    (hissued : Issued d Asked db history record) : Issued d Asked db history' record := by
  refine hissued.imp_right ?_
  rintro ⟨pid,client,user,email,code,hasked,hasks⟩
  exact ⟨pid,client,user,email,code,hasked,hasks.mono (answered_mono h pid)⟩

/-- A change leaves a column alone or sets it. -/
theorem Stems.change {α : Type} {column : User → α} {pid : ℕ} {client : ClientRequest}
    {row row' : User} (hasked : Asked client)
    (hchanges : Changes d (answered history pid) client row row')
    (hstems : Stems d Asked db history column row) : Stems d Asked db history column row' := by
  by_cases hvalue : column row'=column row
  · rcases hstems with ⟨old,hold,hid,heq⟩|⟨new,hnew,hid,heq⟩|hset
    · exact .inl ⟨old,hold,hid.trans hchanges.same.symm,heq.trans hvalue.symm⟩
    · exact .inr (.inl ⟨new,hnew,hid.trans hchanges.same.symm,heq.trans hvalue.symm⟩)
    · obtain ⟨pid',client',before,after,hasked',hchanged,hid,hset,heq⟩ := hset
      exact .inr (.inr ⟨pid',client',before,after,hasked',hchanged,hid.trans hchanges.same.symm,
        hset,heq.trans hvalue.symm⟩)
  · exact .inr (.inr ⟨pid,client,row,row',hasked,hchanges,rfl,hvalue,rfl⟩)

/-- An unused code is still as it was requested. -/
theorem asRequested_of_unused {record : PasswordResetToken} (h : record.usedAt=none) :
    asRequested record=record := by
  obtain ⟨_,_,_,_,_,_,usedAt⟩ := record
  obtain rfl : usedAt=none := h
  rfl

/-- Every reason is one for the origin. -/
theorem reasons (d : Deployment) (Asked : ClientRequest → Prop) (db : Database authSchema) :
    Reasons (conditions d Asked) (Rooted d Asked db) fun _ _ _ => True where
  mono := by
    intro history history' hsub t row hrooted
    cases t with
    | users => exact fun column => (hrooted column).mono hsub
    | passwordResetTokens => exact hrooted.mono hsub
    | _ => trivial
  monoChallenge _ _ _ _ := trivial
  insert := by
    intro history pid E hknown _ t row _ hinsert
    cases t with
    | users =>
      obtain ⟨client,email,password,hasked,hregisters⟩ := hinsert
      exact fun column => .inr (.inl ⟨row,⟨pid,client,email,password,hasked,
        hregisters.mono hknown⟩,rfl,rfl⟩)
    | passwordResetTokens =>
      obtain ⟨client,user,email,code,hasked,hasks⟩ := hinsert
      refine .inr ⟨pid,client,user,email,code,hasked,?_⟩
      rw [asRequested_of_unused hasks.unused]
      exact hasks.mono hknown
    | _ => trivial
  change := by
    intro history pid E hknown _ t row row' hupdate hrooted
    cases t with
    | users =>
      obtain ⟨client,hasked,hchanges⟩ := hupdate
      exact fun column => (hrooted column).change hasked (hchanges.mono hknown)
    | passwordResetTokens =>
      have hsame : asRequested row'=asRequested row := hupdate
      show Issued d Asked db history row'
      rw [Issued,hsame]
      exact hrooted
    | _ => trivial
  challenge _ _ _ _ _ := trivial

/-- The user has reset its password to the one behind the hash, with a code
that was issued for it. -/
def PasswordReset (d : Deployment) (Asked : ClientRequest → Prop) (db : Database authSchema)
    (history : List (Event authSignature)) (userId : UUID) (passwordHash : PasswordHash) : Prop :=
  ∃ pid client user record email code newPassword, Asked client ∧
    Resets d (answered history pid) client user record email code newPassword ∧
    user.id=userId ∧ PasswordService.verifyPassword newPassword passwordHash=true ∧
    Issued d Asked db history record

/-- Every value of the accounts has its origin. -/
structure Accounted (d : Deployment) (Asked : ClientRequest → Prop) (db : Database authSchema)
    (history : List (Event authSignature)) (user : User) : Prop where
  /-- Address and state are those of the start or the registration. -/
  address : (∃ old∈db .users, old.id=user.id ∧ old.email=user.email ∧
      old.isActive=user.isActive) ∨
    ∃ new, Registered d Asked history new ∧ new.id=user.id ∧ new.email=user.email ∧
      new.isActive=user.isActive
  /-- The password is that of the start or the registration, or was reset. -/
  password : (∃ old∈db .users, old.id=user.id ∧ old.passwordHash=user.passwordHash) ∨
    (∃ new, Registered d Asked history new ∧ new.id=user.id ∧
      new.passwordHash=user.passwordHash) ∨
    PasswordReset d Asked db history user.id user.passwordHash
  /-- A second factor was there at the start or confirmed. -/
  enabled : user.twoFactorEnabled=true →
    (∃ old∈db .users, old.id=user.id ∧ old.twoFactorEnabled=true) ∨
    ∃ pid client holder authorization totpCode record, Asked client ∧ holder.id=user.id ∧
      Enables d (answered history pid) client holder authorization totpCode record
  /-- None was there at the start or the registration, or it was removed. -/
  disabled : user.twoFactorEnabled=false →
    (∃ old∈db .users, old.id=user.id ∧ old.twoFactorEnabled=false) ∨
    (∃ new, Registered d Asked history new ∧ new.id=user.id) ∨
    ∃ pid client holder authorization password totp backup, Asked client ∧ holder.id=user.id ∧
      Disables d (answered history pid) client holder authorization password totp backup
  /-- A blocked sign-in was so at the start, or has missed the password. -/
  blocked : user.loginBlocked=true →
    (∃ old∈db .users, old.id=user.id ∧ old.loginBlocked=true) ∨
    ∃ pid client holder email password, Asked client ∧ holder.id=user.id ∧
      MissesPassword d (answered history pid) client holder email password
  /-- An open one was so at the start or the registration, or a reset opened it. -/
  unblocked : user.loginBlocked=false →
    (∃ old∈db .users, old.id=user.id ∧ old.loginBlocked=false) ∨
    (∃ new, Registered d Asked history new ∧ new.id=user.id) ∨
    ∃ passwordHash, PasswordReset d Asked db history user.id passwordHash
  /-- A blocked reset was so at the start, or has missed the code. -/
  resetBlocked : user.passwordResetBlocked=true →
    (∃ old∈db .users, old.id=user.id ∧ old.passwordResetBlocked=true) ∨
    ∃ pid client holder email code newPassword, Asked client ∧ holder.id=user.id ∧
      MissesCode d (answered history pid) client holder email code newPassword
  /-- An open one was so at the start or the registration. -/
  resetUnblocked : user.passwordResetBlocked=false →
    (∃ old∈db .users, old.id=user.id ∧ old.passwordResetBlocked=false) ∨
    ∃ new, Registered d Asked history new ∧ new.id=user.id

variable {user : User}

/-- An account registers without the second factor and unblocked. -/
theorem Registered.fresh {new : User} (h : Registered d Asked history new) :
    new.twoFactorEnabled=false ∧ new.loginBlocked=false ∧ new.passwordResetBlocked=false := by
  obtain ⟨pid,client,email,password,_,hregisters⟩ := h
  rw [hregisters.fresh]
  exact ⟨rfl,rfl,rfl⟩

/-- Address and activity come from the start or from the registration. -/
theorem address_of_stems (h : Stems d Asked db history (fun u => (u.email,u.isActive)) user) :
    (∃ old∈db .users, old.id=user.id ∧ old.email=user.email ∧ old.isActive=user.isActive) ∨
      ∃ new, Registered d Asked history new ∧ new.id=user.id ∧ new.email=user.email ∧
        new.isActive=user.isActive := by
  rcases h with ⟨old,hold,hid,hvalue⟩|⟨new,hnew,hid,hvalue⟩|hset
  · exact .inl ⟨old,hold,hid,Prod.mk.inj hvalue⟩
  · exact .inr ⟨new,hnew,hid,Prod.mk.inj hvalue⟩
  · obtain ⟨pid,client,row,row',_,hchanges,_,hset,_⟩ := hset
    exact absurd (Prod.ext hchanges.address.1 hchanges.address.2) hset

/-- A password hash comes from the start, the registration or a reset. -/
theorem password_of_stems
    (hissued : ∀ pid record, Looked (answered history pid) .passwordResetTokens record →
      Issued d Asked db history record)
    (h : Stems d Asked db history User.passwordHash user) :
    (∃ old∈db .users, old.id=user.id ∧ old.passwordHash=user.passwordHash) ∨
      (∃ new, Registered d Asked history new ∧ new.id=user.id ∧
        new.passwordHash=user.passwordHash) ∨
      PasswordReset d Asked db history user.id user.passwordHash := by
  refine h.imp_right (Or.imp_right ?_)
  rintro ⟨pid,client,row,row',hasked,hchanges,hid,hset,hvalue⟩
  obtain ⟨holder,record,email,code,newPassword,hresets,hholder,hhash⟩ := hchanges.resets hset
  refine ⟨pid,client,holder,record,email,code,newPassword,hasked,hresets,
    hholder.trans (hchanges.same.symm.trans hid),?_,hissued pid record hresets.found⟩
  rw [← hvalue]
  exact hhash

/-- A raised flag comes from the start or an enable request. -/
theorem enabled_of_stems (h : Stems d Asked db history User.twoFactorEnabled user)
    (henabled : user.twoFactorEnabled=true) :
    (∃ old∈db .users, old.id=user.id ∧ old.twoFactorEnabled=true) ∨
      ∃ pid client holder authorization totpCode record, Asked client ∧ holder.id=user.id ∧
        Enables d (answered history pid) client holder authorization totpCode record := by
  rw [Stems,henabled] at h
  rcases h with hold|⟨new,hnew,_,hvalue⟩|hset
  · exact .inl hold
  · exact absurd (hnew.fresh.1.symm.trans hvalue) Bool.false_ne_true
  · obtain ⟨pid,client,row,row',hasked,hchanges,hid,hset,hvalue⟩ := hset
    obtain ⟨holder,authorization,totpCode,record,henables,hholder⟩ := hchanges.enables hset hvalue
    exact .inr ⟨pid,client,holder,authorization,totpCode,record,hasked,
      hholder.trans (hchanges.same.symm.trans hid),henables⟩

/-- A lowered flag comes from the start, the registration or a disable request.
-/
theorem disabled_of_stems (h : Stems d Asked db history User.twoFactorEnabled user)
    (hdisabled : user.twoFactorEnabled=false) :
    (∃ old∈db .users, old.id=user.id ∧ old.twoFactorEnabled=false) ∨
      (∃ new, Registered d Asked history new ∧ new.id=user.id) ∨
      ∃ pid client holder authorization password totp backup, Asked client ∧ holder.id=user.id ∧
        Disables d (answered history pid) client holder authorization password totp backup := by
  rw [Stems,hdisabled] at h
  rcases h with hold|⟨new,hnew,hid,_⟩|hset
  · exact .inl hold
  · exact .inr (.inl ⟨new,hnew,hid⟩)
  · obtain ⟨pid,client,row,row',hasked,hchanges,hid,hset,hvalue⟩ := hset
    obtain ⟨holder,authorization,password,totp,backup,hdisables,hholder⟩ :=
      hchanges.disables hset hvalue
    exact .inr (.inr ⟨pid,client,holder,authorization,password,totp,backup,hasked,
      hholder.trans (hchanges.same.symm.trans hid),hdisables⟩)

/-- A blocked login comes from the start or a wrong password. -/
theorem blocked_of_stems (h : Stems d Asked db history User.loginBlocked user)
    (hblocked : user.loginBlocked=true) :
    (∃ old∈db .users, old.id=user.id ∧ old.loginBlocked=true) ∨
      ∃ pid client holder email password, Asked client ∧ holder.id=user.id ∧
        MissesPassword d (answered history pid) client holder email password := by
  rw [Stems,hblocked] at h
  rcases h with hold|⟨new,hnew,_,hvalue⟩|hset
  · exact .inl hold
  · exact absurd (hnew.fresh.2.1.symm.trans hvalue) Bool.false_ne_true
  · obtain ⟨pid,client,row,row',hasked,hchanges,hid,hset,hvalue⟩ := hset
    obtain ⟨holder,email,password,hmisses,hholder⟩ := hchanges.missesPassword hset hvalue
    exact .inr ⟨pid,client,holder,email,password,hasked,
      hholder.trans (hchanges.same.symm.trans hid),hmisses⟩

/-- An unblocked login comes from the start, the registration or a reset. -/
theorem unblocked_of_stems
    (hissued : ∀ pid record, Looked (answered history pid) .passwordResetTokens record →
      Issued d Asked db history record)
    (h : Stems d Asked db history User.loginBlocked user) (hunblocked : user.loginBlocked=false) :
    (∃ old∈db .users, old.id=user.id ∧ old.loginBlocked=false) ∨
      (∃ new, Registered d Asked history new ∧ new.id=user.id) ∨
      ∃ passwordHash, PasswordReset d Asked db history user.id passwordHash := by
  rw [Stems,hunblocked] at h
  rcases h with hold|⟨new,hnew,hid,_⟩|hset
  · exact .inl hold
  · exact .inr (.inl ⟨new,hnew,hid⟩)
  · obtain ⟨pid,client,row,row',hasked,hchanges,hid,hset,hvalue⟩ := hset
    obtain ⟨holder,record,email,code,newPassword,hresets,hholder,_⟩ := hchanges.unblocks hset hvalue
    exact .inr (.inr ⟨⟨0,newPassword⟩,pid,client,holder,record,email,code,newPassword,hasked,
      hresets,hholder.trans (hchanges.same.symm.trans hid),beq_self_eq_true newPassword,
      hissued pid record hresets.found⟩)

/-- A blocked reset comes from the start or a wrong code. -/
theorem resetBlocked_of_stems (h : Stems d Asked db history User.passwordResetBlocked user)
    (hblocked : user.passwordResetBlocked=true) :
    (∃ old∈db .users, old.id=user.id ∧ old.passwordResetBlocked=true) ∨
      ∃ pid client holder email code newPassword, Asked client ∧ holder.id=user.id ∧
        MissesCode d (answered history pid) client holder email code newPassword := by
  rw [Stems,hblocked] at h
  rcases h with hold|⟨new,hnew,_,hvalue⟩|hset
  · exact .inl hold
  · exact absurd (hnew.fresh.2.2.symm.trans hvalue) Bool.false_ne_true
  · obtain ⟨pid,client,row,row',hasked,hchanges,hid,hset,_⟩ := hset
    obtain ⟨_,holder,email,code,newPassword,hmisses,hholder⟩ := hchanges.missesCode hset
    exact .inr ⟨pid,client,holder,email,code,newPassword,hasked,
      hholder.trans (hchanges.same.symm.trans hid),hmisses⟩

/-- An unblocked reset comes from the start or the registration: no request ends
this block. -/
theorem resetUnblocked_of_stems (h : Stems d Asked db history User.passwordResetBlocked user)
    (hunblocked : user.passwordResetBlocked=false) :
    (∃ old∈db .users, old.id=user.id ∧ old.passwordResetBlocked=false) ∨
      ∃ new, Registered d Asked history new ∧ new.id=user.id := by
  rw [Stems,hunblocked] at h
  rcases h with hold|⟨new,hnew,hid,_⟩|hset
  · exact .inl hold
  · exact .inr ⟨new,hnew,hid⟩
  · obtain ⟨pid,client,row,row',_,hchanges,_,hset,hvalue⟩ := hset
    rw [(hchanges.missesCode hset).1] at hvalue
    cases hvalue

end Runs

section Between

variable {d : Deployment} {Asked : ClientRequest → Prop} {env : Environment}
  {db : Database authSchema} {history history' newer older : List (Event authSignature)}
  {cells : List (Cell User)} {pid : ℕ} {row row' : User} {a b : AuthSystem}

/-- The request has changed a row, step by step. -/
def Steps (d : Deployment) (Asked : ClientRequest → Prop) (history : List (Event authSignature))
    (pid : ℕ) : User → User → Prop :=
  Relation.ReflTransGen fun row row' => ∃ client, Asked client ∧
    Changes d (answered history pid) client row row'

/-- What the holder of an account sees is what it has made of the committed row. -/
def Underway (d : Deployment) (Asked : ClientRequest → Prop)
    (history : List (Event authSignature)) (cells : List (Cell User)) : Prop :=
  ∀ c∈cells,∀ pid row,c.holder=some pid → c.committed=some row →
    ∃ row',c.working=some row' ∧ Steps d Asked history pid row row'

/-- A step of a row keeps its reason as the history grows. -/
theorem Steps.mono (h : history⊆history') (hsteps : Steps d Asked history pid row row') :
    Steps d Asked history' pid row row' := by
  refine Relation.ReflTransGen.mono ?_ row row' hsteps
  rintro _ _ ⟨client,hasked,hchanges⟩
  exact ⟨client,hasked,hchanges.mono (answered_mono h pid)⟩

/-- Uncommitted changes keep their reasons as the history grows. -/
theorem Underway.mono (h : history⊆history') (hunder : Underway d Asked history cells) :
    Underway d Asked history' cells := by
  intro c hc pid row hholder hrow
  obtain ⟨row',hworking,hsteps⟩ := hunder c hc pid row hholder hrow
  exact ⟨row',hworking,hsteps.mono h⟩

/-- A locking statement of the holder adds one step. -/
theorem Underway.lockRows (h : Underway d Asked history cells) {q : User → Bool} {f : User → User}
    (hf : ∀ row,q row=true → Steps d Asked history pid row (f row)) (rows : List ℕ) :
    Underway d Asked history (lockRows pid rows q (fun row => some (f row)) cells) := by
  intro c' hc' i row hholder hrow
  obtain ⟨n,hn⟩ := List.mem_iff_getElem?.mp hc'
  rw [getElem?_lockRows] at hn
  obtain ⟨c,hc,rfl⟩ := Option.map_eq_some_iff.mp hn
  have hbefore := h c (List.mem_of_getElem? hc)
  by_cases hmem : n∈rows
  · rw [if_pos hmem] at hholder hrow ⊢
    unfold Cell.lock at hholder hrow ⊢
    cases hview : c.view pid with
    | none =>
      simp only [hview] at hholder hrow ⊢
      exact hbefore i row hholder hrow
    | some seen =>
      simp only [hview] at hholder hrow ⊢
      by_cases hq : q seen=true
      · rw [if_pos hq] at hholder hrow ⊢
        obtain rfl : pid=i := Option.some.inj hholder
        have hcommitted : c.committed=some row := hrow
        refine ⟨f seen,rfl,Relation.ReflTransGen.trans ?_ (hf seen hq)⟩
        unfold Cell.view at hview
        by_cases hown : c.holder=some pid
        · obtain ⟨row',hworking,hsteps⟩ := hbefore pid row hown hcommitted
          rw [if_pos hown,hworking] at hview
          exact Option.some.inj hview ▸ hsteps
        · rw [if_neg hown,hcommitted] at hview
          exact Option.some.inj hview ▸ Relation.ReflTransGen.refl
      · rw [if_neg hq] at hholder hrow ⊢
        exact hbefore i row hholder hrow
  · rw [if_neg hmem] at hholder hrow ⊢
    exact hbefore i row hholder hrow

/-- An uncommitted new row changes no row that is there. -/
theorem Underway.append (h : Underway d Asked history cells) (pid : ℕ) (row : User) :
    Underway d Asked history (cells++[⟨none,some pid,some row⟩]) := by
  intro c hc i old hholder hold
  rcases List.mem_append.mp hc with hc|hc
  · exact h c hc i old hholder hold
  · obtain rfl := List.mem_singleton.mp hc
    cases hold

/-- Ended transactions hold nothing. -/
theorem Underway.ended (h : Underway d Asked history cells) {f : Cell User → Cell User}
    (hkept : ∀ c,c.holder≠some pid → f c=c) (hended : ∀ c,c.holder=some pid → (f c).holder=none) :
    Underway d Asked history (cells.map f) := by
  intro c' hc' i row hholder hrow
  obtain ⟨c,hc,rfl⟩ := List.mem_map.mp hc'
  by_cases hheld : c.holder=some pid
  · rw [hended c hheld] at hholder
    cases hholder
  · rw [hkept c hheld] at hholder hrow ⊢
    exact h c hc i row hholder hrow

/-- A COMMIT keeps the reasons of the other requests' changes. -/
theorem Underway.settle (h : Underway d Asked history cells) (pid : ℕ) :
    Underway d Asked history (cells.map (·.settle pid)) :=
  h.ended (fun _ hc => if_neg hc) fun c hc => by rw [Cell.settle,if_pos hc]

/-- A ROLLBACK keeps the reasons of the other requests' changes. -/
theorem Underway.release (h : Underway d Asked history cells) (pid : ℕ) :
    Underway d Asked history (cells.map (·.release pid)) :=
  h.ended (fun _ hc => if_neg hc) fun c hc => by rw [Cell.release,if_pos hc]

/-- The request has committed in the newer part of a run. -/
def Commits (newer : List (Event authSignature)) (pid : ℕ) : Prop :=
  ∃ e∈newer,e.pid=pid ∧ e.op=.sql .commit

/-- A request that has committed in the newer part of a run has changed the row. -/
def Changed (d : Deployment) (Asked : ClientRequest → Prop)
    (newer older : List (Event authSignature)) (row row' : User) : Prop :=
  ∃ pid client,Asked client ∧ Commits newer pid ∧
    Changes d (answered (newer++older) pid) client row row'

/-- The row has come about by such changes. -/
abbrev Follows (d : Deployment) (Asked : ClientRequest → Prop)
    (newer older : List (Event authSignature)) : User → User → Prop :=
  Relation.ReflTransGen (Changed d Asked newer older)

/-- A row that followed in a stretch of the run follows in a longer one. -/
theorem Follows.later {newer' : List (Event authSignature)} (hsub : newer⊆newer')
    (h : Follows d Asked newer older row row') : Follows d Asked newer' older row row' := by
  refine Relation.ReflTransGen.mono ?_ row row' h
  rintro _ _ ⟨pid,client,hasked,⟨e,he,hcommits⟩,hchanges⟩
  have hall : newer++older⊆newer'++older := List.append_subset.mpr
    ⟨List.Subset.trans hsub (List.subset_append_left _ _),List.subset_append_right _ _⟩
  exact ⟨pid,client,hasked,⟨e,hsub he,hcommits⟩,hchanges.mono (answered_mono hall pid)⟩

/-- Changes leave address and state alone. -/
theorem Follows.same (h : Follows d Asked newer older row row') :
    row'.id=row.id ∧ row'.email=row.email ∧ row'.isActive=row.isActive := by
  induction h with
  | refl => exact ⟨rfl,rfl,rfl⟩
  | tail _ hstep ih =>
    obtain ⟨pid,client,_,_,hchanges⟩ := hstep
    obtain ⟨hemail,hactive⟩ := hchanges.address
    exact ⟨hchanges.same.trans ih.1,hemail.trans ih.2.1,hactive.trans ih.2.2⟩

/-- A column that differs was set last by one of the changes. -/
theorem Follows.set {α : Type} (column : User → α) (h : Follows d Asked newer older row row')
    (hset : column row'≠column row) : ∃ pid client before after,Commits newer pid ∧
      Asked client ∧ Changes d (answered (newer++older) pid) client before after ∧
      before.id=row.id ∧ column after≠column before ∧ column after=column row' := by
  induction h with
  | refl => exact absurd rfl hset
  | @tail before after hfollows hstep ih =>
    obtain ⟨pid,client,hasked,hcommits,hchanges⟩ := hstep
    by_cases hkept : column after=column before
    · obtain ⟨pid',client',x,y,hcommits',hasked',hchanges',hid,hset',hvalue⟩ :=
        ih (hkept ▸ hset)
      exact ⟨pid',client',x,y,hcommits',hasked',hchanges',hid,hset',hvalue.trans hkept.symm⟩
    · exact ⟨pid,client,before,after,hcommits,hasked,hchanges,(Follows.same hfollows).1,hkept,rfl⟩

/-- How an account differs between two states of a run: each difference was made
by a request with the right to it that committed in between. -/
structure Between (d : Deployment) (Asked : ClientRequest → Prop) (db : Database authSchema)
    (newer older : List (Event authSignature)) (row row' : User) : Prop where
  /-- Address and state stay. -/
  same : row'.id=row.id ∧ row'.email=row.email ∧ row'.isActive=row.isActive
  /-- A new password was set by a reset with a code of the user. -/
  password : row'.passwordHash≠row.passwordHash →
    ∃ pid client user record email code newPassword,Commits newer pid ∧ Asked client ∧
      Resets d (answered (newer++older) pid) client user record email code newPassword ∧
      user.id=row.id ∧ PasswordService.verifyPassword newPassword row'.passwordHash=true ∧
      Issued d Asked db (newer++older) record
  /-- A second factor was confirmed. -/
  enabled : row.twoFactorEnabled=false → row'.twoFactorEnabled=true →
    ∃ pid client user authorization totpCode record,Commits newer pid ∧ Asked client ∧
      Enables d (answered (newer++older) pid) client user authorization totpCode record ∧
      user.id=row.id
  /-- One was given up with the token, the password and the factor. -/
  disabled : row.twoFactorEnabled=true → row'.twoFactorEnabled=false →
    ∃ pid client user authorization password totp backup,Commits newer pid ∧ Asked client ∧
      Disables d (answered (newer++older) pid) client user authorization password totp backup ∧
      user.id=row.id
  /-- A block of the sign-in was brought about by the counted failures. -/
  blocked : row.loginBlocked=false → row'.loginBlocked=true →
    ∃ pid client user email password,Commits newer pid ∧ Asked client ∧
      MissesPassword d (answered (newer++older) pid) client user email password ∧ user.id=row.id
  /-- Only a reset ends it. -/
  unblocked : row.loginBlocked=true → row'.loginBlocked=false →
    ∃ pid client user record email code newPassword,Commits newer pid ∧ Asked client ∧
      Resets d (answered (newer++older) pid) client user record email code newPassword ∧
      user.id=row.id ∧ Issued d Asked db (newer++older) record
  /-- So was a block of the reset. -/
  resetBlocked : row.passwordResetBlocked=false → row'.passwordResetBlocked=true →
    ∃ pid client user email code newPassword,Commits newer pid ∧ Asked client ∧
      MissesCode d (answered (newer++older) pid) client user email code newPassword ∧
      user.id=row.id
  /-- Nothing ends that one. -/
  resetStays : row.passwordResetBlocked=true → row'.passwordResetBlocked=true

/-- What follows row by row gives the reasons column by column. -/
theorem Follows.between (hissued : ∀ pid record,
      Looked (answered (newer++older) pid) .passwordResetTokens record →
      Issued d Asked db (newer++older) record)
    (h : Follows d Asked newer older row row') : Between d Asked db newer older row row' := by
  have hother : ∀ {x y : Bool},x=false → y=true → y≠x := by
    rintro _ _ rfl rfl
    exact Bool.false_ne_true.symm
  have hother' : ∀ {x y : Bool},x=true → y=false → y≠x := by
    rintro _ _ rfl rfl
    exact Bool.false_ne_true
  refine ⟨Follows.same h,fun hset => ?_,fun hoff hon => ?_,fun hon hoff => ?_,fun hoff hon => ?_,
    fun hon hoff => ?_,fun hoff hon => ?_,fun hon => ?_⟩
  · obtain ⟨pid,client,before,after,hcommits,hasked,hchanges,hid,hset,hvalue⟩ :=
      Follows.set User.passwordHash h hset
    obtain ⟨user,record,email,code,newPassword,hresets,huser,hhash⟩ := hchanges.resets hset
    exact ⟨pid,client,user,record,email,code,newPassword,hcommits,hasked,hresets,huser.trans hid,
      hvalue ▸ hhash,hissued pid record hresets.found⟩
  · obtain ⟨pid,client,before,after,hcommits,hasked,hchanges,hid,hset,hvalue⟩ :=
      Follows.set User.twoFactorEnabled h (hother hoff hon)
    obtain ⟨user,authorization,totpCode,record,henables,huser⟩ :=
      hchanges.enables hset (hvalue.trans hon)
    exact ⟨pid,client,user,authorization,totpCode,record,hcommits,hasked,henables,huser.trans hid⟩
  · obtain ⟨pid,client,before,after,hcommits,hasked,hchanges,hid,hset,hvalue⟩ :=
      Follows.set User.twoFactorEnabled h (hother' hon hoff)
    obtain ⟨user,authorization,password,totp,backup,hdisables,huser⟩ :=
      hchanges.disables hset (hvalue.trans hoff)
    exact ⟨pid,client,user,authorization,password,totp,backup,hcommits,hasked,hdisables,
      huser.trans hid⟩
  · obtain ⟨pid,client,before,after,hcommits,hasked,hchanges,hid,hset,hvalue⟩ :=
      Follows.set User.loginBlocked h (hother hoff hon)
    obtain ⟨user,email,password,hmisses,huser⟩ := hchanges.missesPassword hset (hvalue.trans hon)
    exact ⟨pid,client,user,email,password,hcommits,hasked,hmisses,huser.trans hid⟩
  · obtain ⟨pid,client,before,after,hcommits,hasked,hchanges,hid,hset,hvalue⟩ :=
      Follows.set User.loginBlocked h (hother' hon hoff)
    obtain ⟨user,record,email,code,newPassword,hresets,huser,_⟩ :=
      hchanges.unblocks hset (hvalue.trans hoff)
    exact ⟨pid,client,user,record,email,code,newPassword,hcommits,hasked,hresets,huser.trans hid,
      hissued pid record hresets.found⟩
  · obtain ⟨pid,client,before,after,hcommits,hasked,hchanges,hid,hset,_⟩ :=
      Follows.set User.passwordResetBlocked h (hother hoff hon)
    obtain ⟨_,user,email,code,newPassword,hmisses,huser⟩ := hchanges.missesCode hset
    exact ⟨pid,client,user,email,code,newPassword,hcommits,hasked,hmisses,huser.trans hid⟩
  · by_contra hoff
    obtain ⟨pid,client,before,after,_,_,hchanges,_,hset,hvalue⟩ :=
      Follows.set User.passwordResetBlocked h
        (hother' hon (Bool.eq_false_iff.mpr hoff))
    exact hoff (hvalue.symm.trans (hchanges.missesCode hset).1)

/-- A commit publishes what its transaction has made of the rows. -/
theorem older_settle (h : Underway d Asked (newer++older) cells)
    (hcommits : Commits newer pid) :
    Older (Follows d Asked newer older) cells (cells.map (·.settle pid)) := by
  intro n row hrow
  obtain ⟨c,hc,hrow⟩ := publishedAt_eq_some hrow
  rw [publishedAt,List.getElem?_map,hc,Option.map_some,Option.bind_some]
  unfold Cell.settle
  split
  · rename_i hheld
    obtain ⟨row',hworking,hsteps⟩ := h c (List.mem_of_getElem? hc) pid row hheld hrow
    refine ⟨row',hworking,Relation.ReflTransGen.mono ?_ row row' hsteps⟩
    rintro _ _ ⟨client,hasked,hchanges⟩
    exact ⟨pid,client,hasked,hcommits,hchanges⟩
  · exact ⟨row,hrow,.refl⟩

variable {states : ℕ → Answers}

/-- The requests of a run with what was answered to them. -/
abbrev Answered (d : Deployment) (Asked : ClientRequest → Prop) (db : Database authSchema)
    (sys : AuthSystem) (states : ℕ → Answers) : Prop :=
  Tracks (protocol (conditions d Asked)) noAnswers (fun _ o => ∀ a : Served, o=.ok a → True)
    (EvidencedRequests.Tracked (conditions d Asked) (Rooted d Asked db) fun _ _ _ => True) sys
    states

/-- What an answered statement does to the accounts. -/
theorem underway_statement {s s' : Tables authSchema} {stmt : Statement authSchema}
    {reply : stmt.Reply} (h : Underway d Asked (newer++older) (s.cells .users))
    (hf : s.fire pid stmt=some (some reply,s'))
    (hprovides : ∀ q f,Effect.sql stmt=.sql (.update .users q f) → ∀ row,q row=true →
      Steps d Asked (newer++older) pid row (f row))
    (hkeeps : ∀ q,Effect.sql stmt≠.sql (.delete .users q)) :
    Underway d Asked ((⟨pid,.sql stmt,reply⟩::newer)++older) (s'.cells .users) ∧
      Older (Follows d Asked (⟨pid,.sql stmt,reply⟩::newer) older) (s.cells .users)
        (s'.cells .users) := by
  have hsub : newer++older⊆(⟨pid,.sql stmt,reply⟩::newer)++older := List.subset_cons_self _ _
  have hlater := h.mono hsub
  have hrefl : ∀ row,Follows d Asked (⟨pid,.sql stmt,reply⟩::newer) older row row :=
    fun _ => .refl
  have hother : s'.cells .users=s.cells .users →
      Underway d Asked ((⟨pid,.sql stmt,reply⟩::newer)++older) (s'.cells .users) ∧
        Older (Follows d Asked (⟨pid,.sql stmt,reply⟩::newer) older) (s.cells .users)
          (s'.cells .users) := by
    intro hcells
    rw [hcells]
    exact ⟨hlater,Older.refl hrefl _⟩
  cases stmt with
  | select t q =>
    cases hf
    exact hother rfl
  | selectForUpdate t q =>
    obtain ⟨rows,_,_,hs⟩ := Tables.locking_answer hf
    cases t with
    | users =>
      have hcells := congrFun hs .users
      rw [Tables.write_cells_self (_ : Tables authSchema)] at hcells
      rw [hcells]
      exact ⟨hlater.lockRows (f := id) (fun _ _ => .refl) rows,Older.lockRows hrefl _ _ _ _ _⟩
    | _ => exact hother ((congrFun hs _).trans (Tables.write_cells_of_ne s _ (by rintro ⟨⟩)))
  | insert t row =>
    rcases Tables.fire_insert_answer hf with ⟨_,rfl⟩|⟨_,_,_,rfl⟩
    · exact hother rfl
    · cases t with
      | users =>
        rw [Tables.write_cells_self (_ : Tables authSchema)]
        exact ⟨hlater.append pid row,Older.append hrefl _ _⟩
      | _ => exact hother (Tables.write_cells_of_ne s _ (by rintro ⟨⟩))
  | update t q f =>
    obtain ⟨rows,_,_,hs⟩ := Tables.fire_update_answer hf
    cases t with
    | users =>
      have hcells := congrFun hs .users
      rw [Tables.write_cells_self (_ : Tables authSchema)] at hcells
      rw [hcells]
      exact ⟨hlater.lockRows (fun row hq => (hprovides q f rfl row hq).mono hsub) rows,
        Older.lockRows hrefl _ _ _ _ _⟩
    | _ => exact hother ((congrFun hs _).trans (Tables.write_cells_of_ne s _ (by rintro ⟨⟩)))
  | delete t q =>
    obtain ⟨rows,_,_,hs⟩ := Tables.fire_delete_answer hf
    cases t with
    | users => exact absurd rfl (hkeeps q)
    | _ => exact hother ((congrFun hs _).trans (Tables.write_cells_of_ne s _ (by rintro ⟨⟩)))
  | commit =>
    cases hf
    exact ⟨hlater.settle pid,older_settle hlater ⟨_,List.mem_cons_self,rfl,rfl⟩⟩
  | rollback =>
    cases hf
    exact ⟨hlater.release pid,Older.release hrefl _ pid⟩

/-- Every move of the requests keeps what is underway, and publishes what requests
that commit have made of the accounts. -/
theorem underway_step {mv : AuthMove} (ht : Answered d Asked db a states)
    (hbound : Bounded Respects a) (hhistory : a.history=newer++older)
    (hu : Underway d Asked a.history (a.shared.tables.cells .users))
    (hs : authMachine.step a mv=some b) :
    ∃ newer',b.history=newer'++older ∧ newer⊆newer' ∧
      Underway d Asked b.history (b.shared.tables.cells .users) ∧
      Older (Follows d Asked newer' older) (a.shared.tables.cells .users)
        (b.shared.tables.cells .users) := by
  have hrefl : ∀ newer row,Follows d Asked newer older row row := fun _ _ => .refl
  have hclose : ∀ i,Underway d Asked a.history
      ((authMachine.close i a.shared).tables.cells .users) ∧
      Older (Follows d Asked newer older) (a.shared.tables.cells .users)
        ((authMachine.close i a.shared).tables.cells .users) :=
    fun i => ⟨hu.release i,Older.release (hrefl _) _ i⟩
  cases mv with
  | effect i c =>
    obtain ⟨op,k,hp,⟨s,hf,rfl⟩|⟨r,s,hf,rfl⟩⟩ := Machine.step_effect hs
    · have hcells : s.tables.cells=a.shared.tables.cells := (fire_progress hf).1
      refine ⟨newer,hhistory,List.Subset.refl _,?_⟩
      show Underway d Asked a.history (s.tables.cells .users) ∧ Older _ _ (s.tables.cells .users)
      rw [hcells]
      exact ⟨hu,Older.refl (hrefl _) _⟩
    · obtain ⟨_,⟨hprovides,rfl⟩,_⟩ := ht.follows i _ hp r (offered_of_fire hf)
      refine ⟨⟨i,op,r⟩::newer,by rw [hhistory]; rfl,List.subset_cons_self _ _,?_⟩
      rw [hhistory] at hu ⊢
      cases op with
      | external op =>
        obtain ⟨_,rfl⟩ := fire_external hf
        exact ⟨hu.mono (List.subset_cons_self _ _),Older.refl (hrefl _) _⟩
      | sql stmt =>
        have hknown := ht.inv.known i
        rw [hhistory] at hknown
        refine underway_statement hu (fire_sql hf).1 ?_ ?_
        · intro q f hop row hq
          cases hop
          obtain ⟨client,hasked,hchanges⟩ := hprovides row hq
          exact .single ⟨client,hasked,hchanges.mono hknown⟩
        · intro q hop
          cases hop
          exact absurd (show Lasting .users by decide) (hbound i _ hp).1
  | finish i =>
    simp only [Machine.step] at hs
    split at hs
    · cases hs
      exact ⟨newer,hhistory,List.Subset.refl _,hclose i⟩
    · cases hs
  | kill i =>
    simp only [Machine.step] at hs
    split at hs
    · cases hs
      exact ⟨newer,hhistory,List.Subset.refl _,hclose i⟩
    · cases hs
  | spawn p =>
    cases hs
    exact ⟨newer,hhistory,List.Subset.refl _,hu,Older.refl (hrefl _) _⟩

/-- Requests never delete an account, in any reached state. -/
theorem bounded_reaches (hbound : Bounded Respects a)
    (h : authMachine.Reaches (StartsAsked d Asked) a b) : Bounded Respects b := by
  refine (Bounded.reaches (I := fun _ => True) (R := fun _ _ => True) ?_ (fun _ => trivial)
    (fun _ _ _ _ _ => trivial) (fun _ _ _ _ _ _ _ _ _ => ⟨trivial,trivial⟩)
    (fun _ _ _ => ⟨trivial,trivial⟩) hbound trivial h).1
  rintro sys p ⟨client,_,rfl⟩
  exact ageless_bind (ageless_respond d client) fun _ => trivial

/-- Every run of requests keeps what is underway, and publishes what requests
that commit in it have made of the accounts. -/
theorem underway_reaches (ht : Answered d Asked db a states) (hbound : Bounded Respects a)
    (hu : Underway d Asked a.history (a.shared.tables.cells .users))
    (h : authMachine.Reaches (StartsAsked d Asked) a b) :
    ∃ states newer,Answered d Asked db b states ∧ b.history=newer++a.history ∧
      Underway d Asked b.history (b.shared.tables.cells .users) ∧
      Older (Follows d Asked newer a.history) (a.shared.tables.cells .users)
        (b.shared.tables.cells .users) := by
  induction h with
  | refl => exact ⟨states,[],ht,rfl,hu,Older.refl (fun _ => .refl) _⟩
  | @step s s' mv hreach hc hs ih =>
    obtain ⟨states,newer,ht,hhistory,hu,hold⟩ := ih
    obtain ⟨newer',hhistory',hsub,hu',hold'⟩ :=
      underway_step ht (bounded_reaches hbound hreach) hhistory hu hs
    obtain ⟨states',ht'⟩ := (EvidencedRequests.duties (reasons d Asked db)
      fun _ hasked => keeps_served hasked).step ht hc hs
    refine ⟨states',newer',ht',hhistory',hu',Older.trans (fun _ _ _ => .trans) ?_ hold'⟩
    intro n row hrow
    obtain ⟨row',hrow',hfollows⟩ := hold n row hrow
    exact ⟨row',hrow',Follows.later hsub hfollows⟩

end Between

section Runs

variable {d : Deployment} {Asked : ClientRequest → Prop} {env : Environment}
  {db : Database authSchema} {history history' : List (Event authSignature)} {sys : AuthSystem}

/-- The requests of a run from idle tables, with nothing underway. -/
theorem exists_answered (h : authMachine.Reaches (StartsAsked d Asked) (idleSystem env db) sys) :
    ∃ states,Answered d Asked db sys states ∧ Bounded Respects sys ∧
      Underway d Asked sys.history (sys.shared.tables.cells .users) := by
  have hrows : ∀ t, ∀ row∈db t, Rooted d Asked db [] t row := by
    intro t row hrow
    cases t with
    | users => exact fun column => .inl ⟨row,hrow,rfl,rfl⟩
    | passwordResetTokens => exact .inl ⟨row,hrow,rfl⟩
    | _ => trivial
  have hbound : Bounded Respects (idleSystem env db) := fun i p hp => by cases hp
  have hstart : Answered d Asked db (idleSystem env db) fun _ => noAnswers :=
    ⟨EvidencedRequests.tracked_idle hrows fun _ _ _ _ _ => trivial,fun i p hp => (by cases hp),fun _ _ => rfl⟩
  have hunder : Underway d Asked (idleSystem env db).history
      ((idleSystem env db).shared.tables.cells .users) := by
    intro c hc pid row hholder
    obtain ⟨_,_,rfl⟩ := List.mem_map.mp hc
    cases hholder
  obtain ⟨states,newer,ht,_,hu,_⟩ := underway_reaches hstart hbound hunder h
  exact ⟨states,ht,bounded_reaches hbound h,hu⟩

/-- However requests overlap, killed ones included, the accounts of a reached
state are those of an earlier one, in their order, with differences that requests
with the right to them made and committed in between; every committed value of
an account and every committed reset code has its origin. -/
theorem accounts_change {a b : AuthSystem}
    (ha : authMachine.Reaches (StartsAsked d Asked) (idleSystem env db) a)
    (h : authMachine.Reaches (StartsAsked d Asked) a b) :
    (∃ newer,b.history=newer++a.history ∧
      List.SublistForall₂ (Between d Asked db newer a.history)
        (a.shared.tables.committed .users) (b.shared.tables.committed .users)) ∧
    (∀ user∈b.shared.tables.committed .users, Accounted d Asked db b.history user) ∧
    ∀ record∈b.shared.tables.committed .passwordResetTokens,
      Issued d Asked db b.history record := by
  obtain ⟨states,ht,hbound,hu⟩ := exists_answered ha
  obtain ⟨states',newer,ht',hhistory,_,hold⟩ := underway_reaches ht hbound hu h
  have hissued : ∀ pid record, Looked (answered b.history pid) .passwordResetTokens record →
      Issued d Asked db b.history record :=
    fun pid record hlooked => ht'.inv.looked pid .passwordResetTokens record hlooked
  refine ⟨⟨newer,hhistory,?_⟩,fun user huser => ?_,fun record hrecord =>
    ht'.inv.rows.committed hrecord⟩
  · rw [hhistory] at hissued
    refine Older.sublist fun n row hrow => ?_
    obtain ⟨row',hrow',hfollows⟩ := hold n row hrow
    exact ⟨row',hrow',Follows.between hissued hfollows⟩
  · have hstems : Rooted d Asked db b.history .users user := ht'.inv.rows.committed huser
    exact {
      address := address_of_stems (hstems _)
      password := password_of_stems hissued (hstems _)
      enabled := enabled_of_stems (hstems _)
      disabled := disabled_of_stems (hstems _)
      blocked := blocked_of_stems (hstems _)
      unblocked := unblocked_of_stems hissued (hstems _)
      resetBlocked := resetBlocked_of_stems (hstems _)
      resetUnblocked := resetUnblocked_of_stems (hstems _) }

/-- The sample account with a blocked sign-in. -/
def sampleBlocked : User := {sampleUser with loginBlocked := true}

/-- A request for a code. -/
def sampleRequest : List Directive :=
  [.start (fromClient (.requestReset "a@b")),.steps 0 12,.finish 0]

/-- A reset, and a sign-in that overlaps it. -/
def sampleRecovery : List Directive :=
  [.start (fromClient (.requestReset "a@b")),.steps 0 12,.finish 0,
    .start (fromClient (.resetPassword "a@b" "000000" "password2")),
    .start (fromClient (.login "a@b" "password1")),.steps 1 12,.steps 2 6,.steps 1 12,
    .finish 1]

/-- The requests of the sample. -/
def SampleAsked (client : ClientRequest) : Prop := .start client∈sampleRecovery

/-- The reset alone. -/
def sampleReset : List Directive :=
  [.start (fromClient (.resetPassword "a@b" "000000" "password2")),.steps 1 24,.finish 1]

/-- The sample run starts the sample requests only. -/
theorem asked_sample (client : ClientRequest) (h : .start client∈sampleRequest++sampleReset) :
    SampleAsked client := by
  simp [sampleRequest,sampleReset] at h
  simp [SampleAsked,sampleRecovery]
  tauto

/-- Between the blocked account and the recovered one stands the reset. -/
theorem accounts_change_recovery : ∃ (a b : AuthSystem) (newer : List (Event authSignature))
    (row row' : User),a.shared.tables.committed .users=[row] ∧
      b.shared.tables.committed .users=[row'] ∧ row.loginBlocked=true ∧ row'.loginBlocked=false ∧
      row'.passwordHash.text="password2" ∧ b.history=newer++a.history ∧
      Between sampleDeployment SampleAsked (sampleDatabase [sampleBlocked] [] []) newer a.history
        row row' := by
  have hrun : (follow sampleDeployment (fun _ _ => true) sampleEnvironment
      (sampleDatabase [sampleBlocked] [] []) sampleRequest).bind (fun a =>
        (authMachine.runSchedule (fun _ _ => true)
          (sampleReset.flatMap (·.moves sampleDeployment)) a).map fun b =>
          (a.shared.tables.committed .users,b.shared.tables.committed .users))=
      some ([sampleBlocked],[⟨⟨1⟩,"a@b",⟨11,"password2"⟩,true,false,false,false⟩]) := by
    decide +kernel
  obtain ⟨a,ha,hb⟩ := Option.bind_eq_some_iff.mp hrun
  obtain ⟨b,hb,hrows⟩ := Option.map_eq_some_iff.mp hb
  obtain ⟨hbefore,hafter⟩ := Prod.mk.inj hrows
  have hreached : authMachine.Reaches (StartsAsked sampleDeployment SampleAsked) _ a :=
    reaches_of_lines (fun client h => asked_sample client (List.mem_append_left _ h)) ha
  have hnext : authMachine.Reaches (StartsAsked sampleDeployment SampleAsked) a b :=
    reaches_of_schedule (fun client h => asked_sample client (List.mem_append_right _ h)) hb
  obtain ⟨newer,hhistory,hbetween⟩ := (accounts_change hreached hnext).1
  rw [hbefore,hafter] at hbetween
  cases hbetween with
  | cons hrow _ => exact ⟨a,b,newer,_,_,hbefore,hafter,rfl,rfl,rfl,hhistory,hrow⟩
  | cons_right hnone => cases hnone

end Runs

end BackendPlatform.AccountChanges
