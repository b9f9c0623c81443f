import BackendPlatform.EvidencedRequests
import BackendPlatform.LastingRecords

/-!
# Where sessions come from

However requests overlap, every session and every refresh token was there at
the start or belongs to a family that one request opened: a sign-in with the
right password of a user without a second factor, or an answered challenge
that an earlier sign-in with the right password had left. The evidence is what
the request itself was answered, so it names the rows and values it acted on.
-/

set_option autoImplicit false

namespace BackendPlatform.SignInOrigins

open ProgramTrees InterleavedRuns ExpiringStore TransactionalTables RowLocking RowInvariants
open AuthRecords AuthEffects AuthRepositories AuthServices AuthFlows AuthFootprints
open ConcurrentRequests EvidencedRequests LastingRecords
open AuthService BruteForceProtectionService RefreshTokenService TwoFactorService

section Evidence

/-- A sign-in with the right password of an active and unblocked user, past
both locks. -/
structure SignsIn (d : Deployment) (E : Answers) (client : ClientRequest) (user : User)
    (email password : String) : Prop where
  /-- The request. -/
  request : client.request=.login email password
  /-- The user was looked up. -/
  looked : Looked E .users user
  /-- Its address is the one of the request. -/
  address : user.email=d.lower (d.lower email)
  /-- The password is right. -/
  password : PasswordService.verifyPassword password user.passwordHash=true
  /-- The user is active. -/
  active : user.isActive=true
  /-- The user is not blocked. -/
  unblocked : user.loginBlocked=false
  /-- The address is not locked for this client. -/
  unlocked : E (.external (.redisExists
    (lockKey d .login (d.lower email++":"++orUnknown client.ipAddress)))) false
  /-- The account is not locked. -/
  accountUnlocked : E (.external (.redisExists (lockKey d .loginAccount (d.lower email)))) false

/-- An answered challenge: it stood in Redis for this user and this client
address, and the user is active and gave its second factor. -/
structure Redeems (d : Deployment) (E : Answers) (client : ClientRequest) (user : User)
    (challengeId : String) (challenge : LoginChallenge) (totp backup : Option String) : Prop where
  /-- The request. -/
  request : client.request=.verifyLoginChallenge challengeId totp backup
  /-- The challenge stood in Redis. -/
  stood : E (.external (.redisGet (.loginChallenge challengeId))) (some (.challenge challenge))
  /-- It was made for the address of the client. -/
  sameAddress : challengeContextMatches d challenge client.ipAddress=true
  /-- It was made for the user. -/
  owner : challenge.userId.bind UUID.parse=some user.id
  /-- The user was looked up. -/
  looked : Looked E .users user
  /-- The user is active. -/
  active : user.isActive=true
  /-- The user has a second factor. -/
  enabled : user.twoFactorEnabled=true
  /-- It was given. -/
  factor : Accepts d E user totp backup

/-- The request opens a family of refresh tokens for a user. -/
inductive Opens (d : Deployment) (E : Answers) (client : ClientRequest) (userId familyId : UUID) :
    Prop
  /-- A sign-in without a second factor. -/
  | login (user : User) (email password : String) (h : SignsIn d E client user email password)
      (hplain : user.twoFactorEnabled=false) (hid : user.id=userId)
      (hdrawn : E (.external .draw) familyId.int)
  /-- An answered challenge. -/
  | challenge (user : User) (challengeId : String) (challenge : LoginChallenge)
      (totp backup : Option String)
      (h : Redeems d E client user challengeId challenge totp backup) (hid : user.id=userId)
      (hdrawn : E (.external .draw) familyId.int)

/-- The request leaves a challenge for a user with a second factor. -/
def Challenges (d : Deployment) (E : Answers) (client : ClientRequest) (challengeId : String)
    (challenge : LoginChallenge) : Prop :=
  ∃ user email password, SignsIn d E client user email password ∧ user.twoFactorEnabled=true ∧
    challenge=⟨some user.id.str,some (contextFingerprint d client.ipAddress)⟩ ∧
    ∃ drawn : UUID, E (.external .draw) drawn.int ∧ challengeId=drawn.str

variable {d : Deployment} {E E' : Answers} {client : ClientRequest} {user : User}

/-- Evidence of a right password survives further answers. -/
theorem SignsIn.mono (hle : E≤E') {email password : String}
    (h : SignsIn d E client user email password) : SignsIn d E' client user email password :=
  {h with
    looked := h.looked.mono hle
    unlocked := hle _ _ h.unlocked
    accountUnlocked := hle _ _ h.accountUnlocked}

/-- Evidence of an answered challenge survives further answers. -/
theorem Redeems.mono (hle : E≤E') {challengeId : String} {challenge : LoginChallenge}
    {totp backup : Option String}
    (h : Redeems d E client user challengeId challenge totp backup) :
    Redeems d E' client user challengeId challenge totp backup :=
  {h with
    stood := hle _ _ h.stood
    looked := h.looked.mono hle
    factor := h.factor.mono hle}

/-- Evidence of an opened session survives further answers. -/
theorem Opens.mono (hle : E≤E') {userId familyId : UUID}
    (h : Opens d E client userId familyId) : Opens d E' client userId familyId := by
  cases h with
  | login user email password h hplain hid hdrawn =>
    exact .login user email password (h.mono hle) hplain hid (hle _ _ hdrawn)
  | challenge user challengeId challenge totp backup h hid hdrawn =>
    exact .challenge user challengeId challenge totp backup (h.mono hle) hid (hle _ _ hdrawn)

/-- Evidence of an issued challenge survives further answers. -/
theorem Challenges.mono (hle : E≤E') {challengeId : String} {challenge : LoginChallenge}
    (h : Challenges d E client challengeId challenge) :
    Challenges d E' client challengeId challenge := by
  obtain ⟨user,email,password,h,henabled,hchallenge,drawn,hdrawn,hid⟩ := h
  exact ⟨user,email,password,h.mono hle,henabled,hchallenge,drawn,hle _ _ hdrawn,hid⟩

end Evidence

section Walks

variable {d : Deployment} {K : Conditions} {E : Answers} {client : ClientRequest}

/-- A wrong password of an account that is not blocked, or no account at all. -/
def Mistaken (d : Deployment) (E : Answers) (email password : String) (user : Option LoadedUser) :
    Prop :=
  ∀ loaded, user=some loaded → Looked E .users loaded.row ∧
    loaded.row.email=d.lower (d.lower email) ∧ loaded.row.loginBlocked=false ∧
    PasswordService.verifyPassword password loaded.row.passwordHash=false

/-- Evidence of a wrong password survives further answers. -/
theorem Mistaken.mono {E' : Answers} (hle : E≤E') {email password : String}
    {user : Option LoadedUser} (h : Mistaken d E email password user) :
    Mistaken d E' email password user :=
  fun loaded hloaded => (h loaded hloaded).imp_left (Looked.mono hle)

/-- A rejected password needs what counting its failure needs, and returns
nothing. -/
theorem keeps_rejectPassword {user : Option LoadedUser} {email identifier : String}
    {ip ua : Option String} (hlogs : LogsFailures K)
    (haccount : ∀ E', E≤E' → Keeps K E' (recordAccountFailure d email user) fun _ _ => True) :
    Keeps K E (rejectPassword d user email identifier ip ua) fun _ _ => False := by
  refine (keeps_recordFailure _ _).bind fun E₁ _ hle₁ _ => (haccount E₁ hle₁).bind
    fun _ blocked _ _ => (keeps_logEvent (hlogs _ _ rfl)).bind fun _ _ _ _ =>
    keeps_commit.bind fun _ _ _ _ => ?_
  split
  · exact keeps_raise _
  · exact keeps_raise _

/-- What holds of the issued tokens holds of granted access. -/
theorem keeps_grantAccess {user : LoadedUser} {email identifier : String} {ip ua : Option String}
    {Q : Answers → TokenPair → Prop}
    (hchallenge : ∀ E', E≤E' → user.row.twoFactorEnabled=true →
      Keeps K E' (createLoginChallenge d user.row.id ip) fun _ _ => True)
    (hissue : ∀ E', E≤E' → user.row.twoFactorEnabled=false →
      Keeps K E' (issueForUser d user.row.id ip ua) Q)
    (hlog : ∀ E', E≤E' → user.row.twoFactorEnabled=false → K.insert E' .auditEvents
      ⟨"auth.login.success","success",some user.row.id,some user.row.id,ip,ua,
        AuditService.sanitizePayload d []⟩)
    (hmono : ∀ E' E'' pair, E'≤E'' → Q E' pair → Q E'' pair) :
    Keeps K E (grantAccess d user email identifier ip ua) fun E' result => ∀ pair,
      result.tokens=some pair → Q E' pair := by
  refine (keeps_clearFailures _ _).bind fun E₁ _ hle₁ _ =>
    (keeps_clearFailures _ _).bind fun E₂ _ hle₂ _ => ?_
  have hle : E≤E₂ := hle₁.trans hle₂
  simp only [Program.monad_bind,Program.monad_pure]
  split
  · rename_i henabled
    refine (hchallenge E₂ hle henabled).bind fun _ _ _ _ => keeps_pure ?_
    rintro pair ⟨⟩
  · rename_i hdisabled
    have hdisabled : user.row.twoFactorEnabled=false := Bool.eq_false_iff.mpr hdisabled
    refine (hissue E₂ hle hdisabled).bind fun E₃ pair hle₃ hpair =>
      (keeps_logEvent (hlog E₃ (hle.trans hle₃) hdisabled)).bind fun _ _ hle₄ _ =>
      keeps_commit.bind fun E₅ _ hle₅ _ => keeps_pure ?_
    rintro _ ⟨⟩
    exact hmono E₃ E₅ pair (hle₄.trans hle₅) hpair

/-- What holds of the issued tokens holds of a redeemed challenge. -/
theorem keeps_redeemChallenge {user : LoadedUser} {factor : PendingFactor}
    {challengeId identifier : String} {ip ua : Option String} {Q : Answers → TokenPair → Prop}
    (hfactor : ∀ E', Keeps K E' (flushFactor factor) fun _ _ => True)
    (hissue : ∀ E', E≤E' → Keeps K E' (issueForUser d user.row.id ip ua) Q)
    (hlog : ∀ E', E≤E' → K.insert E' .auditEvents
      ⟨"auth.login.success","success",some user.row.id,some user.row.id,ip,ua,
        AuditService.sanitizePayload d [("via",.str "2fa_challenge")]⟩)
    (hmono : ∀ E' E'' pair, E'≤E'' → Q E' pair → Q E'' pair) :
    Keeps K E (redeemChallenge d user factor challengeId identifier ip ua) Q := by
  refine (keeps_clearFailures _ _).bind fun E₁ _ hle₁ _ =>
    (keeps_deleteLoginChallenge _).bind fun E₂ _ hle₂ _ =>
    (hfactor E₂).bind fun E₃ _ hle₃ _ => ?_
  have hle : E≤E₃ := hle₁.trans (hle₂.trans hle₃)
  exact (hissue E₃ hle).bind fun E₄ pair hle₄ hpair =>
    (keeps_logEvent (hlog E₄ (hle.trans hle₄))).bind fun _ _ hle₅ _ =>
    keeps_commit.bind fun E₆ _ hle₆ _ => keeps_pure (hmono E₄ E₆ pair (hle₅.trans hle₆) hpair)

/-- A sign-in grants access only with the right password, and counts a failure
only for a wrong one. -/
theorem keeps_login {email password : String} {Q : Answers → LoginStepResult → Prop}
    (hlogs : LogsFailures K) (hrequest : client.request=.login email password)
    (hreject : ∀ E' user, E≤E' → Mistaken d E' email password user →
      Keeps K E' (rejectPassword d user (d.lower email)
        (d.lower email++":"++orUnknown client.ipAddress) client.ipAddress client.userAgent) Q)
    (hgrant : ∀ E' (user : LoadedUser), E≤E' → SignsIn d E' client user.row email password →
      Keeps K E' (grantAccess d user (d.lower email)
        (d.lower email++":"++orUnknown client.ipAddress) client.ipAddress client.userAgent) Q) :
    Keeps K E (login d email password client.ipAddress client.userAgent) Q := by
  refine (keeps_load _).bind fun E₁ found hle₁ hfound => ?_
  cases found with
  | none =>
    refine (keeps_assertNotLocked _ _).bind fun E₂ _ hle₂ _ =>
      hreject E₂ none (hle₁.trans hle₂) ?_
    rintro _ ⟨⟩
  | some user =>
    obtain ⟨hloaded,haddress⟩ := hfound.2 user rfl
    simp only [Program.monad_throw,Program.monad_bind]
    split
    · exact keeps_raise _
    · rename_i hunblocked
      refine (keeps_assertNotLocked _ _).bind fun E₂ _ hle₂ hunlocked =>
        (keeps_assertNotLocked _ _).bind fun E₃ _ hle₃ hfree => ?_
      have hle : E≤E₃ := hle₁.trans (hle₂.trans hle₃)
      have hlooked : Looked E₃ .users user.row := hloaded.row.mono (hle₂.trans hle₃)
      split
      · rename_i hwrong
        refine hreject E₃ (some user) hle ?_
        rintro _ ⟨⟩
        exact ⟨hlooked,beq_iff_eq.mp haddress,Bool.eq_false_iff.mpr hunblocked,
          by simpa using hwrong⟩
      · rename_i hpassword
        split
        · exact (keeps_refuse hlogs _ _ _ _ _).elim
        · rename_i hactive
          exact hgrant E₃ user hle {
            request := hrequest
            looked := hlooked
            address := beq_iff_eq.mp haddress
            password := by simpa using hpassword
            active := by simpa using hactive
            unblocked := Bool.eq_false_iff.mpr hunblocked
            unlocked := hle₃ _ _ hunlocked
            accountUnlocked := hfree }

/-- A challenge is redeemed only when it stood for this client and user and
the second factor was given. -/
theorem keeps_verifyLoginChallenge {challengeId : String} {totp backup : Option String}
    {Q : Answers → TokenPair → Prop} (hlogs : LogsFailures K)
    (hrequest : client.request=.verifyLoginChallenge challengeId totp backup)
    (hredeem : ∀ E' (user : LoadedUser) factor challenge, E≤E' →
      Redeems d E' client user.row challengeId challenge totp backup →
      Keeps K E' (redeemChallenge d user factor challengeId
        (challengeId++":"++orUnknown client.ipAddress) client.ipAddress client.userAgent) Q) :
    Keeps K E (verifyLoginChallenge d challengeId totp backup client.ipAddress client.userAgent)
      Q := by
  refine (keeps_assertNotLocked _ _).bind fun E₁ _ hle₁ _ =>
    (keeps_getLoginChallenge challengeId).bind fun E₂ found hle₂ hfound => ?_
  cases found with
  | none => exact keeps_raise _
  | some challenge =>
    have hstood := hfound challenge rfl
    simp only [Program.monad_throw,Program.monad_bind]
    split
    · exact (keeps_recordFailure _ _).bind fun _ _ _ _ =>
        (keeps_deleteLoginChallenge _).bind fun _ _ _ _ => (keeps_refuse hlogs _ _ _ _ _).elim
    · rename_i haddress
      split
      · exact keeps_raise _
      · rename_i userId howner
        refine (keeps_load _).bind fun E₃ found hle₃ hloaded => ?_
        cases found with
        | none => exact keeps_raise _
        | some user =>
          obtain ⟨hloaded,hid⟩ := hloaded.2 user rfl
          have hid : user.row.id=userId := beq_iff_eq.mp hid
          dsimp only
          split
          · exact (keeps_deleteLoginChallenge _).bind fun _ _ _ _ =>
              (keeps_refuse hlogs _ _ _ _ _).elim
          · rename_i hactive
            refine Keeps.bind (Keeps.handle (keeps_verifyForLogin hloaded totp backup)
              fun E₄ failure _ => ?_) fun E₄ factor hle₄ haccepted => ?_
            · simp only [Program.monad_throw,Program.monad_bind]
              split
              · exact (keeps_recordFailure _ _).bind fun _ _ _ _ =>
                  (keeps_refuse hlogs _ _ _ _ _).elim
              · exact keeps_raise _
            · exact hredeem E₄ user factor challenge (hle₁.trans (hle₂.trans (hle₃.trans hle₄))) {
                request := hrequest
                stood := (hle₃.trans hle₄) _ _ hstood
                sameAddress := by simpa using haddress
                owner := howner.trans (congrArg some hid.symm)
                looked := hloaded.row.mono hle₄
                active := by simpa using hactive
                enabled := haccepted.1
                factor := haccepted.2 }

/-- The token that is found was looked up under its identifier. -/
theorem keeps_getByJtiForUpdate (jti : UUID) :
    Keeps K E (RefreshTokenRepository.getByJtiForUpdate jti) fun E' found =>
      ∀ record, found=some record → Looked E' .refreshTokens record ∧ record.jti=jti := by
  refine (keeps_selectForUpdate .refreshTokens _).bind fun E₁ rows _ hrows => ?_
  refine (keeps_scalarOneOrNone rows).mono fun E' o hq => ⟨hq.1,fun found ho record hrecord => ?_⟩
  obtain ⟨hlooked,hjti⟩ := hrows.2 record ((hq.2 found ho).2 record hrecord)
  exact ⟨hlooked.mono hq.1,beq_iff_eq.mp hjti⟩

/-- A refresh token that the service signed and that is valid now. -/
def Verified (d : Deployment) (E : Answers) (token : RawToken) : Prop :=
  ∃ payload encoding now, token=.signed payload encoding ∧ E (.external .now) now ∧
    JWTService.refusal d payload .refresh now=none

/-- Evidence of a checked token survives further answers. -/
theorem Verified.mono {E' : Answers} (hle : E≤E') {token : RawToken} (h : Verified d E token) :
    Verified d E' token := by
  obtain ⟨payload,encoding,now,htoken,hnow,hvalid⟩ := h
  exact ⟨payload,encoding,now,htoken,hle _ _ hnow,hvalid⟩

/-- Such a token that is stored. -/
structure Presents (d : Deployment) (E : Answers) (token : RawToken) (record : RefreshToken)
    (ids : RefreshIds) : Prop where
  /-- The token is valid. -/
  valid : Verified d E token
  /-- Its row was looked up. -/
  looked : Looked E .refreshTokens record
  /-- The row has its id. -/
  jti : record.jti=ids.tokenJti
  /-- The row has its user. -/
  user : record.userId=ids.userId
  /-- The row has its family. -/
  family : record.familyId=ids.familyId
  /-- The row has its hash. -/
  hash : record.tokenHash=hashRefreshToken d token

/-- A stored token that was not used, revoked or left to expire. -/
structure Exchanges (d : Deployment) (E : Answers) (token : RawToken) (record : RefreshToken)
    (ids : RefreshIds) : Prop extends Presents d E token record ids where
  /-- It has not expired. -/
  current : ∃ now, E (.external .now) now ∧ now≤record.expiresAt
  /-- It was not revoked. -/
  unrevoked : record.revokedAt=none
  /-- It was not exchanged. -/
  unrotated : record.rotatedAt=none

/-- Evidence of a presented token survives further answers. -/
theorem Presents.mono {E' : Answers} (hle : E≤E') {token : RawToken} {record : RefreshToken}
    {ids : RefreshIds} (h : Presents d E token record ids) : Presents d E' token record ids :=
  {h with
    valid := h.valid.mono hle
    looked := h.looked.mono hle}

/-- Evidence of an exchanged token survives further answers. -/
theorem Exchanges.mono {E' : Answers} (hle : E≤E') {token : RawToken} {record : RefreshToken}
    {ids : RefreshIds} (h : Exchanges d E token record ids) : Exchanges d E' token record ids := by
  obtain ⟨now,hnow,hcurrent⟩ := h.current
  exact {h with
    toPresents := h.toPresents.mono hle
    current := ⟨now,hle _ _ hnow,hcurrent⟩}

/-- Only such a token is exchanged. -/
theorem keeps_rotate {token : RawToken} {ip ua : Option String} {Q : Answers → TokenPair → Prop}
    (hreuse : ∀ E' (ids : RefreshIds), E≤E' → Keeps K E' (do
      RefreshTokenRepository.revokeFamily ids.familyId "reuse_detected"
      SessionRepository.revokeFamily ids.familyId
      throw (.tokenReuseDetected ids.sessionId ids.familyId)) Q)
    (hexchange : ∀ E' record ids, E≤E' → Exchanges d E' token record ids →
      Keeps K E' (exchange d record ids ip ua) Q) :
    Keeps K E (rotate d token ip ua) Q := by
  refine (keeps_decodeAndValidate token _).bind fun E₁ claims hle₁ hclaims =>
    (keeps_free (inside_refreshIds claims) rfl).bind fun E₂ ids hle₂ _ =>
    (keeps_getByJtiForUpdate _).bind fun E₃ found hle₃ hfound => ?_
  have hverified : Verified d E₁ token := by
    obtain ⟨payload,encoding,now,htoken,hnow,hvalid,-⟩ := hclaims
    exact ⟨payload,encoding,now,htoken,hnow,hvalid⟩
  cases found with
  | none => exact keeps_raise _
  | some record =>
    obtain ⟨hlooked,hjti⟩ := hfound record rfl
    simp only [Program.monad_throw,Program.monad_bind]
    split
    · exact keeps_raise _
    · rename_i hclaims
      obtain ⟨huser,hfamily⟩ := not_or.mp hclaims
      split
      · exact keeps_raise _
      · rename_i hhash
        have hpresents : Presents d E₃ token record ids :=
          { valid := hverified.mono (hle₂.trans hle₃)
            looked := hlooked
            jti := hjti
            user := not_not.mp huser
            family := not_not.mp hfamily
            hash := not_not.mp hhash }
        refine (keeps_free (inside_isFamilyActive _) rfl).bind fun E₄ _ hle₄ _ => ?_
        split
        · exact keeps_raise _
        · refine keeps_utcNow.bind fun E₅ now hle₅ hnow => ?_
          have hle : E≤E₅ := hle₁.trans (hle₂.trans (hle₃.trans (hle₄.trans hle₅)))
          split
          · exact keeps_raise _
          · rename_i hcurrent
            split
            · exact hreuse E₅ ids hle
            · rename_i hunused
              simp only [Bool.or_eq_true,Option.isSome_iff_ne_none,not_or,not_not] at hunused
              exact hexchange E₅ record ids hle {
                toPresents := hpresents.mono (hle₄.trans hle₅)
                current := ⟨now,hnow,not_lt.mp hcurrent⟩
                unrevoked := hunused.1
                unrotated := hunused.2 }

/-- A failed renewal needs no reason and returns nothing. -/
theorem keeps_refreshFailed (hlogs : LogsFailures K) (ip ua : Option String) (failure : Failure) :
    Keeps K E (refreshFailed d ip ua failure) fun _ _ => False := by
  unfold refreshFailed
  split
  · exact (keeps_free (inside_markAccessSessionRevoked d _) rfl).bind
      fun _ _ _ _ => (keeps_logEvent (hlogs _ _ rfl)).bind fun _ _ _ _ =>
      keeps_commit.bind fun _ _ _ _ => keeps_raise _
  · exact (keeps_logEvent (hlogs _ _ rfl)).bind fun _ _ _ _ =>
      keeps_commit.bind fun _ _ _ _ => keeps_raise _
  · exact keeps_raise _

/-- What holds of the exchange holds of the renewal. -/
theorem keeps_refreshTokens {token : RawToken} {ip ua : Option String}
    {Q : Answers → TokenPair → Prop} (hlogs : LogsFailures K)
    (hrotate : Keeps K E (rotate d token ip ua) Q)
    (hlog : ∀ E' pair, Q E' pair → K.insert E' .auditEvents
      ⟨"auth.refresh.success","success",none,none,ip,ua,AuditService.sanitizePayload d []⟩)
    (hmono : ∀ E' E'' pair, E'≤E'' → Q E' pair → Q E'' pair) :
    Keeps K E (refreshTokens d token ip ua) Q :=
  (hrotate.handle fun _ failure _ => (keeps_refreshFailed hlogs ip ua failure).elim).bind
    fun E₁ pair _ hpair => (keeps_logEvent (hlog E₁ pair hpair)).bind fun _ _ hle₂ _ =>
    keeps_commit.bind fun E₃ _ hle₃ _ => keeps_pure (hmono E₁ E₃ pair (hle₂.trans hle₃) hpair)

/-- The token that is revoked is stored, or unknown. -/
def Revokes (d : Deployment) (E : Answers) (token : RawToken) (payload : List (String×PyValue)) :
    Prop :=
  (Verified d E token ∧ payload=[("family_id",.none)]) ∨
    ∃ record ids, Presents d E token record ids ∧ payload=[("family_id",.str ids.familyId.str)]

/-- A revocation needs the reasons of what it does to tokens and sessions. -/
theorem keeps_revoke {token : RawToken} {revokeFamily : Bool} {reason : String}
    (htokens : ∀ E' familyId, Keeps K E' (RefreshTokenRepository.revokeFamily familyId reason)
      fun _ _ => True)
    (hsessions : ∀ E' familyId, Keeps K E' (SessionRepository.revokeFamily familyId)
      fun _ _ => True) :
    Keeps K E (revoke d token revokeFamily reason) fun E' result =>
      (result=none → Verified d E' token) ∧ ∀ revocation pending,
        result=some (revocation,pending) → ∃ record ids, Presents d E' token record ids ∧
          revocation.familyId=ids.familyId := by
  refine (keeps_decodeAndValidate token _).bind fun E₁ claims hle₁ hclaims =>
    (keeps_free (inside_refreshIds claims) rfl).bind fun E₂ ids hle₂ _ =>
    (keeps_getByJtiForUpdate _).bind fun E₃ found hle₃ hfound => ?_
  have hverified : Verified d E₁ token := by
    obtain ⟨payload,encoding,now,htoken,hnow,hvalid,-⟩ := hclaims
    exact ⟨payload,encoding,now,htoken,hnow,hvalid⟩
  cases found with
  | none => exact keeps_pure ⟨fun _ => hverified.mono (hle₂.trans hle₃),by rintro _ _ ⟨⟩⟩
  | some record =>
    obtain ⟨hlooked,hjti⟩ := hfound record rfl
    simp only [Program.monad_throw,Program.monad_bind]
    split
    · exact keeps_raise _
    · rename_i hhash
      split
      · exact keeps_raise _
      · rename_i hfamily
        split
        · exact keeps_raise _
        · rename_i huser
          have hpresents : Presents d E₃ token record ids :=
            { valid := hverified.mono (hle₂.trans hle₃)
              looked := hlooked
              jti := hjti
              user := not_not.mp huser
              family := not_not.mp hfamily
              hash := not_not.mp hhash }
          split
          · refine (htokens _ _).bind fun E₄ _ hle₄ _ => (hsessions _ _).bind fun E₅ _ hle₅ _ =>
              keeps_pure ⟨by rintro ⟨⟩,?_⟩
            rintro _ _ ⟨⟩
            exact ⟨record,ids,hpresents.mono (hle₄.trans hle₅),rfl⟩
          · refine keeps_utcNow.bind fun E₄ _ hle₄ _ => keeps_pure ⟨by rintro ⟨⟩,?_⟩
            rintro _ _ ⟨⟩
            exact ⟨record,ids,hpresents.mono hle₄,rfl⟩

/-- A revocation is logged with the family of the token. -/
theorem keeps_revokeRefreshToken {token : RawToken} {revokeFamily : Bool} {ip ua : Option String}
    (htokens : ∀ E' familyId, Keeps K E' (RefreshTokenRepository.revokeFamily familyId "logout")
      fun _ _ => True)
    (hsessions : ∀ E' familyId, Keeps K E' (SessionRepository.revokeFamily familyId)
      fun _ _ => True)
    (hflush : ∀ E' pending, Keeps K E' (flushRevocation pending) fun _ _ => True)
    (hlog : ∀ E' payload, Revokes d E' token payload → K.insert E' .auditEvents
      ⟨"auth.refresh.revoked","success",none,none,ip,ua,AuditService.sanitizePayload d payload⟩) :
    Keeps K E (revokeRefreshToken d token revokeFamily ip ua) fun _ _ => True := by
  refine (keeps_revoke htokens hsessions).bind fun E₁ result _ hresult => ?_
  cases result with
  | none =>
    exact (keeps_logEvent (hlog E₁ _ (.inl ⟨hresult.1 rfl,rfl⟩))).bind fun _ _ _ _ => keeps_commit
  | some result =>
    obtain ⟨record,ids,hpresents,hfamily⟩ := hresult.2 result.1 result.2 rfl
    refine (keeps_free (inside_markAccessSessionRevoked d _) rfl).bind
      fun E₂ _ hle₂ _ => (hflush _ _).bind fun E₃ _ hle₃ _ =>
      (keeps_logEvent (hlog E₃ _ (.inr ⟨record,ids,hpresents.mono (hle₂.trans hle₃),?_⟩))).bind
      fun _ _ _ _ => keeps_commit
    rw [hfamily]

end Walks

section Rules

/-- The request follows on a token it looked up. -/
def Renews (E : Answers) (userId familyId : UUID) : Prop :=
  ∃ parent, Looked E .refreshTokens parent ∧ parent.userId=userId ∧ parent.familyId=familyId

/-- What has to be known before a token or a session is inserted. -/
def Inserts (d : Deployment) (Asked : ClientRequest → Prop) (E : Answers) :
    (t : Table) → Row t → Prop
  | .refreshTokens,token =>
    (∃ client, Asked client ∧ Opens d E client token.userId token.familyId) ∨
      Renews E token.userId token.familyId
  | .userSessions,session =>
    ∃ client, Asked client ∧ Opens d E client session.userId session.refreshFamilyId
  | _,_ => True

/-- The reasons for tokens, sessions and challenges. Updates only make rows older. -/
def conditions (d : Deployment) (Asked : ClientRequest → Prop) : Conditions where
  insert := Inserts d Asked
  change _ t row row' := Lasting t → Later t row row'
  challenge E challengeId challenge :=
    ∃ client, Asked client ∧ Challenges d E client challengeId challenge

/-- A failure event opens no session. -/
theorem logsFailures {d : Deployment} {Asked : ClientRequest → Prop} :
    LogsFailures (conditions d Asked) := fun _ _ _ => trivial

variable {d : Deployment} {Asked : ClientRequest → Prop} {E : Answers} {α : Type}

/-- An access that writes no token, session or challenge. -/
def Aside (a : Access) : Prop :=
  a≠.insert .refreshTokens ∧ a≠.insert .userSessions ∧ a≠.redisWrite .challenge

instance (a : Access) : Decidable (Aside a) := inferInstanceAs (Decidable (_ ∧ _))

/-- Actions that leave tokens, sessions and challenges alone and only make
rows older. -/
theorem keeps_of_inside {p : Action α} {fp : List Access} (hage : Ageless p) (h : Inside p fp)
    (hfp : ∀ a∈fp, Aside a) : Keeps (conditions d Asked) E p fun _ _ => True := by
  refine keeps_of_within (Program.within_and hage h) ?_
  rintro op ⟨hrespects,huses⟩ E
  have haside : ∀ a∈accesses op, Aside a := fun a ha => hfp a (huses a ha)
  cases op with
  | external op =>
    cases op with
    | redisSet key value expiry =>
      cases key with
      | loginChallenge challengeId =>
        exact absurd rfl (haside (.redisWrite .challenge) (List.mem_singleton_self _)).2.2
      | _ => trivial
    | _ => trivial
  | sql stmt =>
    cases stmt with
    | insert t row =>
      cases t with
      | refreshTokens =>
        exact absurd rfl (haside (.insert .refreshTokens) (List.mem_singleton_self _)).1
      | userSessions =>
        exact absurd rfl (haside (.insert .userSessions) (List.mem_singleton_self _)).2.1
      | _ => trivial
    | update t q f => exact fun row hq ht => hrespects ht row hq
    | _ => trivial

/-- The same when no lasting row is updated either. -/
theorem keeps_aside {p : Action α} {fp : List Access} (h : Inside p fp)
    (hharmless : ∀ a∈fp, Harmless a) (hfp : ∀ a∈fp, Aside a) :
    Keeps (conditions d Asked) E p fun _ _ => True :=
  keeps_of_inside (ageless_of_inside h hharmless) h hfp

end Rules

section Openings

variable {d : Deployment} {Asked : ClientRequest → Prop} {E : Answers}

/-- A family is only issued where the request opens it with the drawn name. -/
theorem keeps_issueForUser {client : ClientRequest} (hasked : Asked client) (userId : UUID)
    (ip ua : Option String) (hopens : ∀ E' familyId, E≤E' → E' (.external .draw) familyId.int →
      Opens d E' client userId familyId) :
    Keeps (conditions d Asked) E (issueForUser d userId ip ua) fun E' pair =>
      Opens d E' client userId pair.refreshFamilyId := by
  refine keeps_uuid4.bind fun E₁ familyId hle₁ hdrawn => ?_
  have hfamily : Opens d E₁ client userId familyId := hopens E₁ familyId hle₁ hdrawn
  refine Keeps.bind (Q := fun _ _ => True) ?_ fun E₂ session hle₂ _ =>
    keeps_uuid4.bind fun E₃ jti hle₃ _ =>
    (keeps_free (inside_issueRefreshToken d _ _ _ _) rfl).bind
      fun E₄ token hle₄ _ => ?_
  · refine keeps_uuid4.bind fun E₂ id hle₂ _ => Keeps.bind (Q := fun _ _ => True) ?_
      fun _ _ _ _ => keeps_pure trivial
    exact keeps_insertRow (t := .userSessions) ⟨client,hasked,hfamily.mono hle₂⟩
  · have hknown : Opens d E₄ client userId familyId :=
      hfamily.mono (hle₂.trans (hle₃.trans hle₄))
    refine Keeps.bind (Q := fun _ _ => True)
      (keeps_insertRow (t := .refreshTokens) (.inl ⟨client,hasked,hknown⟩)) fun E₅ _ hle₅ _ => ?_
    exact (keeps_free (inside_issueAccessToken d _ _) rfl).bind
      fun E₆ _ hle₆ _ => keeps_pure (hknown.mono (hle₅.trans hle₆))

/-- A successor of a token that was looked up. -/
theorem keeps_exchange {record : RefreshToken} {ids : RefreshIds} (ip ua : Option String)
    (hrecord : Looked E .refreshTokens record) (huser : record.userId=ids.userId)
    (hfamily : record.familyId=ids.familyId) :
    Keeps (conditions d Asked) E (exchange d record ids ip ua) fun E' pair =>
      ∃ userId, Renews E' userId pair.refreshFamilyId := by
  have hrenews : ∀ E', E≤E' → Renews E' ids.userId ids.familyId := fun E' hle =>
    ⟨record,hrecord.mono hle,huser,hfamily⟩
  refine keeps_uuid4.bind fun E₁ jti hle₁ _ =>
    (keeps_free (inside_issueRefreshToken d _ _ _ _) rfl).bind
      fun E₂ token hle₂ _ => ?_
  have hmark : Inside (RefreshTokenRepository.markRotated record jti)
      [.clock,.update .refreshTokens] :=
    inside_bind (inside_utcNow.widen rfl) fun _ => (inside_flushUpdate _ _ _).widen rfl
  refine (keeps_of_inside (ageless_markRotated record jti) hmark (by decide)).bind
    fun E₃ _ hle₃ _ => ?_
  have hle : E≤E₃ := hle₁.trans (hle₂.trans hle₃)
  refine Keeps.bind (Q := fun _ _ => True)
    (keeps_insertRow (t := .refreshTokens) (.inr (hrenews E₃ hle))) fun E₄ _ hle₄ _ => ?_
  refine (keeps_of_inside (ageless_touchFamily _) (inside_touchFamily _) (by decide)).bind
    fun E₅ _ hle₅ _ => ?_
  exact (keeps_free (inside_issueAccessToken d _ _) rfl).bind
    fun E₆ _ hle₆ _ => keeps_pure ⟨ids.userId,hrenews E₆
      (hle.trans (hle₄.trans (hle₅.trans hle₆)))⟩

end Openings

section SignIns

variable {d : Deployment} {Asked : ClientRequest → Prop} {E : Answers} {client : ClientRequest}

/-- The tokens belong to a family that the request opened. -/
def Redeemed (d : Deployment) (client : ClientRequest) (E : Answers) (pair : TokenPair) : Prop :=
  ∃ userId, Opens d E client userId pair.refreshFamilyId

/-- A pair issued for an opened session stays so. -/
theorem Redeemed.mono {E' : Answers} (hle : E≤E') {pair : TokenPair}
    (h : Redeemed d client E pair) : Redeemed d client E' pair := by
  obtain ⟨userId,hopens⟩ := h
  exact ⟨userId,hopens.mono hle⟩

/-- So do the tokens a sign-in step hands out. -/
def Granted (d : Deployment) (client : ClientRequest) (E : Answers)
    (result : LoginStepResult) : Prop :=
  ∀ pair, result.tokens=some pair → Redeemed d client E pair

/-- A challenge is issued only for a right password of an enrolled user. -/
theorem keeps_createLoginChallenge (hasked : Asked client) {user : User} {email password : String}
    (h : SignsIn d E client user email password) (henabled : user.twoFactorEnabled=true) :
    Keeps (conditions d Asked) E (createLoginChallenge d user.id client.ipAddress)
      fun _ _ => True := by
  refine keeps_uuid4.bind fun E₁ drawn hle hdrawn => ?_
  have hchallenges : Challenges d E₁ client drawn.str
      ⟨some user.id.str,some (contextFingerprint d client.ipAddress)⟩ :=
    ⟨user,email,password,h.mono hle,henabled,rfl,drawn,hdrawn,rfl⟩
  have hset : Keeps (conditions d Asked) E₁ (redisSet (.loginChallenge drawn.str) (.challenge
      ⟨some user.id.str,some (contextFingerprint d client.ipAddress)⟩)
      d.settings.loginChallengeTtlSeconds) fun _ _ => True :=
    keeps_redisSet ⟨client,hasked,hchallenges⟩
  exact hset.bind fun _ _ _ _ => keeps_pure trivial

/-- Counting a failure opens no session. -/
theorem keeps_recordAccountFailure (user : Option LoadedUser) (email : String) :
    Keeps (conditions d Asked) E (recordAccountFailure d email user) fun _ _ => True := by
  cases user with
  | none => exact keeps_pure trivial
  | some user =>
    refine (keeps_recordFailure _ _).bind fun _ attempts _ _ => ?_
    simp only [Program.monad_bind,Program.monad_pure]
    split
    · exact (keeps_of_inside (ageless_flushLoginBlocked user) (inside_flushUpdate _ _ _)
        (by decide)).bind fun _ _ _ _ => keeps_pure trivial
    · exact keeps_pure trivial

/-- Sign-ins keep to the protocol. -/
theorem keeps_signIn (hasked : Asked client) {email password : String}
    (hrequest : client.request=.login email password) :
    Keeps (conditions d Asked) E (login d email password client.ipAddress client.userAgent)
      (Granted d client) :=
  keeps_login logsFailures hrequest (fun _ _ _ _ =>
      (keeps_rejectPassword logsFailures fun _ _ => keeps_recordAccountFailure _ _).elim)
    fun _ user _ hsigns => keeps_grantAccess
      (fun _ hle henabled => keeps_createLoginChallenge hasked (hsigns.mono hle) henabled)
      (fun _ hle hplain => (keeps_issueForUser hasked user.row.id _ _ fun _ _ hle' hdrawn =>
        .login user.row email password (hsigns.mono (hle.trans hle')) hplain rfl hdrawn).mono
          fun _ _ hq => ⟨hq.1,fun pair hpair => ⟨user.row.id,hq.2 pair hpair⟩⟩)
      (fun _ _ _ => trivial) fun _ _ _ hle => Redeemed.mono hle

end SignIns

section Challenges

variable {d : Deployment} {Asked : ClientRequest → Prop} {E : Answers} {client : ClientRequest}
  {user : LoadedUser}

/-- Answers to challenges keep to the protocol. -/
theorem keeps_answer (hasked : Asked client) {challengeId : String} {totp backup : Option String}
    (hrequest : client.request=.verifyLoginChallenge challengeId totp backup) :
    Keeps (conditions d Asked) E (verifyLoginChallenge d challengeId totp backup client.ipAddress
      client.userAgent) (Redeemed d client) :=
  keeps_verifyLoginChallenge logsFailures hrequest fun _ user factor challenge _ hredeems =>
    keeps_redeemChallenge
      (fun _ => keeps_aside (inside_flushFactor factor) (by decide) (by decide))
      (fun _ hle => (keeps_issueForUser hasked user.row.id _ _ fun _ _ hle' hdrawn =>
        .challenge user.row challengeId challenge totp backup (hredeems.mono (hle.trans hle')) rfl
          hdrawn).mono fun _ _ hq => ⟨hq.1,fun pair hpair => ⟨user.row.id,hq.2 pair hpair⟩⟩)
      (fun _ _ => trivial) fun _ _ _ hle => Redeemed.mono hle

end Challenges

section Tokens

variable {d : Deployment} {Asked : ClientRequest → Prop} {E : Answers} {client : ClientRequest}

/-- Tokens that follow on a token that was looked up. -/
def Renewed (E : Answers) (pair : TokenPair) : Prop :=
  ∃ userId, Renews E userId pair.refreshFamilyId

/-- Revoking a family's tokens issues none. -/
theorem keeps_revokeTokens (familyId : UUID) (reason : String) :
    Keeps (conditions d Asked) E (RefreshTokenRepository.revokeFamily familyId reason)
      fun _ _ => True :=
  keeps_of_inside (ageless_revokeTokensWhere _ _) (inside_revokeTokensWhere _ _) (by decide)

/-- Revoking a family's sessions opens none. -/
theorem keeps_revokeSessions (familyId : UUID) :
    Keeps (conditions d Asked) E (SessionRepository.revokeFamily familyId) fun _ _ => True :=
  keeps_of_inside (ageless_revokeSessionsWhere _) (inside_revokeSessionsWhere _) (by decide)

/-- A renewed pair stays founded as answers are added. -/
theorem Renewed.mono {E' : Answers} (hle : E≤E') {pair : TokenPair} (h : Renewed E pair) :
    Renewed E' pair := by
  obtain ⟨userId,parent,hlooked,huser,hfamily⟩ := h
  exact ⟨userId,parent,hlooked.mono hle,huser,hfamily⟩

/-- Renewals keep to the protocol. -/
theorem keeps_renew (token : RawToken) (ip ua : Option String) :
    Keeps (conditions d Asked) E (refreshTokens d token ip ua) Renewed := by
  refine keeps_refreshTokens logsFailures ?_ (fun _ _ _ => trivial)
    fun _ _ _ hle => Renewed.mono hle
  exact keeps_rotate (fun _ _ _ => (keeps_revokeTokens _ _).bind fun _ _ _ _ =>
      (keeps_revokeSessions _).bind fun _ _ _ _ => keeps_raise _)
    fun E' record ids _ h => keeps_exchange ip ua h.looked h.user h.family

/-- Revocations keep to the protocol. -/
theorem keeps_signOut (token : RawToken) (revokeFamily : Bool) (ip ua : Option String) :
    Keeps (conditions d Asked) E (revokeRefreshToken d token revokeFamily ip ua)
      fun _ _ => True := by
  refine keeps_revokeRefreshToken (fun _ _ => keeps_revokeTokens _ _)
    (fun _ _ => keeps_revokeSessions _) (fun _ pending => ?_) fun _ _ _ => trivial
  cases pending with
  | none => exact keeps_pure trivial
  | some pending =>
    exact keeps_of_inside (ageless_revokeToken _ _ _) (inside_flushUpdate _ _ _) (by decide)

end Tokens

section Requests

open PasswordResetService Endpoints

variable {d : Deployment} {Asked : ClientRequest → Prop} {E : Answers}

/-- The tokens of a response. -/
def issuedTokens : Response → Option TokenPair
  | .login result => result.tokens
  | .tokens pair => some pair
  | _ => none

/-- The tokens of a response belong to a family that the request opened or
follow on a token that it looked up. -/
def Justified (d : Deployment) (E : Answers) (answer : Served) : Prop :=
  ∀ pair, issuedTokens answer.response=some pair →
    (∃ userId, Opens d E answer.client userId pair.refreshFamilyId) ∨ Renewed E pair

/-- A response without tokens. -/
theorem keeps_tokenless {α : Type} {p : Action α} {client : ClientRequest} {f : α → Response}
    (h : Keeps (conditions d Asked) E p fun _ _ => True) (hf : ∀ a, issuedTokens (f a)=none) :
    Keeps (conditions d Asked) E
      ((p.bind fun a => .pure (f a)).bind fun r => .pure ⟨client,r⟩ : Action Served)
      (Justified d) := by
  refine (h.bind (R := fun _ r => issuedTokens r=none) fun _ a _ _ => keeps_pure (hf a)).bind
    fun _ r _ hnone => keeps_pure ?_
  intro pair hpair
  exact absurd (hnone.symm.trans hpair) (by rintro ⟨⟩)

/-- Every request keeps to the protocol. -/
theorem keeps_served {client : ClientRequest} (hasked : Asked client) :
    Keeps (conditions d Asked) E (served d client) (Justified d) := by
  obtain ⟨request,ip,ua⟩ := client
  cases request with
  | login email password =>
    have hlogin : Keeps (conditions d Asked) E (respond d ⟨.login email password,ip,ua⟩)
        fun E' r => ∀ pair, issuedTokens r=some pair →
          ∃ userId, Opens d E' ⟨.login email password,ip,ua⟩ userId pair.refreshFamilyId :=
      (keeps_signIn hasked rfl).bind fun _ _ _ hgranted => keeps_pure hgranted
    exact hlogin.bind fun _ _ _ hopens => keeps_pure fun pair hpair => .inl (hopens pair hpair)
  | verifyLoginChallenge challengeId totp backup =>
    refine ((keeps_answer hasked rfl).bind (R := fun E' r => ∀ pair,
      issuedTokens r=some pair → ∃ userId,
        Opens d E' ⟨.verifyLoginChallenge challengeId totp backup,ip,ua⟩ userId
          pair.refreshFamilyId) fun _ pair _ hredeemed => keeps_pure ?_).bind
      fun _ _ _ hopens => keeps_pure fun pair hpair => .inl (hopens pair hpair)
    rintro _ ⟨⟩
    exact hredeemed
  | refreshTokens token =>
    refine ((keeps_renew token ip ua).bind (R := fun E' r => ∀ pair,
      issuedTokens r=some pair → Renewed E' pair) fun _ pair _ hrenewed => keeps_pure ?_).bind
      fun _ _ _ hrenewed => keeps_pure fun pair hpair => .inr (hrenewed pair hpair)
    rintro _ ⟨⟩
    exact hrenewed
  | register email password =>
    exact keeps_tokenless (keeps_aside (inside_register d email password ip ua) (by decide)
      (by decide)) fun _ => rfl
  | revokeRefreshToken token revokeFamily =>
    exact keeps_tokenless (keeps_signOut token revokeFamily ip ua) fun _ => rfl
  | requestReset email =>
    exact keeps_tokenless (keeps_of_inside (ageless_requestReset d email ip ua)
      (inside_requestReset d email ip ua) (by decide)) fun _ => rfl
  | resetPassword email code newPassword =>
    exact keeps_tokenless (keeps_of_inside (ageless_resetPassword d email code newPassword ip ua)
      (inside_resetPassword d email code newPassword ip ua) (by decide)) fun _ => rfl
  | currentSession authorization =>
    exact keeps_tokenless (keeps_aside (inside_getCurrentUser d authorization) (by decide)
      (by decide)) fun _ => rfl
  | setupTwoFactor authorization =>
    exact keeps_tokenless (keeps_of_inside (ageless_endpoint d authorization _ ip ua
      (ageless_createSetup d)) (inside_setupTwoFactor d authorization ip ua) (by decide))
      fun _ => rfl
  | enableTwoFactor authorization totpCode =>
    refine keeps_tokenless (keeps_of_inside ?_
      (inside_enableTwoFactor d authorization totpCode ip ua) (by decide)) fun _ => rfl
    exact ageless_bind (ageless_of_inside (inside_getCurrentUser d authorization) (by decide))
      fun user => ageless_bind (ageless_enable d user totpCode) fun _ =>
      ageless_of_inside (inside_completed d _ user ip ua) (by decide)
  | disableTwoFactor authorization password totp backup =>
    exact keeps_tokenless (keeps_of_inside
      (ageless_disableTwoFactor d authorization password totp backup ip ua)
      (inside_disableTwoFactor d authorization password totp backup ip ua) (by decide))
      fun _ => rfl
  | regenerateBackupCodes authorization totp backup =>
    exact keeps_tokenless (keeps_of_inside (ageless_endpoint d authorization _ ip ua fun user =>
      ageless_regenerateBackupCodes d user totp backup)
      (inside_regenerateBackupCodes' d authorization totp backup ip ua) (by decide)) fun _ => rfl

end Requests

section Runs

variable {d : Deployment} {Asked : ClientRequest → Prop} {env : Environment}
  {db : Database authSchema} {history history' : List (Event authSignature)} {sys : AuthSystem}

/-- A request of the run has opened the family for the user. -/
def Opened (d : Deployment) (Asked : ClientRequest → Prop) (history : List (Event authSignature))
    (userId familyId : UUID) : Prop :=
  ∃ pid client, Asked client ∧ Opens d (answered history pid) client userId familyId

/-- The challenge was there at the start, or a sign-in of the run has left it. -/
def Standing (d : Deployment) (Asked : ClientRequest → Prop) (env : Environment)
    (history : List (Event authSignature)) (challengeId : String) (challenge : LoginChallenge) :
    Prop :=
  (∃ entry, env.redis (.loginChallenge challengeId)=some entry ∧
    entry.value=.challenge challenge) ∨
  ∃ pid client, Asked client ∧ Challenges d (answered history pid) client challengeId challenge

/-- Where rows come from: the start, or a request that opened the family. -/
def Rooted (d : Deployment) (Asked : ClientRequest → Prop) (db : Database authSchema)
    (history : List (Event authSignature)) : (t : Table) → Row t → Prop
  | .refreshTokens,token =>
    (∃ old∈db .refreshTokens, old.userId=token.userId ∧ old.familyId=token.familyId) ∨
      Opened d Asked history token.userId token.familyId
  | .userSessions,session =>
    (∃ old∈db .userSessions, asOpened session=asOpened old) ∨
      Opened d Asked history session.userId session.refreshFamilyId
  | _,_ => True

/-- An opened family stays opened as the history grows. -/
theorem Opened.mono (h : history⊆history') {userId familyId : UUID}
    (hopened : Opened d Asked history userId familyId) :
    Opened d Asked history' userId familyId := by
  obtain ⟨pid,client,hasked,hopens⟩ := hopened
  exact ⟨pid,client,hasked,hopens.mono (answered_mono h pid)⟩

/-- A challenge keeps its sign-in as the history grows. -/
theorem Standing.mono (h : history⊆history') {challengeId : String} {challenge : LoginChallenge}
    (hstanding : Standing d Asked env history challengeId challenge) :
    Standing d Asked env history' challengeId challenge := by
  refine hstanding.imp_right ?_
  rintro ⟨pid,client,hasked,hchallenges⟩
  exact ⟨pid,client,hasked,hchallenges.mono (answered_mono h pid)⟩

/-- A row keeps its root as the history grows. -/
theorem Rooted.mono (h : history⊆history') {t : Table} {row : Row t}
    (hrooted : Rooted d Asked db history t row) : Rooted d Asked db history' t row := by
  cases t with
  | refreshTokens => exact hrooted.imp_right (Opened.mono h)
  | userSessions => exact hrooted.imp_right (Opened.mono h)
  | _ => trivial

/-- The origin of a row is that of its later versions. -/
theorem Rooted.later {t : Table} {row row' : Row t} (hlater : Lasting t → Later t row row')
    (hrooted : Rooted d Asked db history t row) : Rooted d Asked db history t row' := by
  cases t with
  | refreshTokens =>
    have hsame : asIssued row'=asIssued row := (hlater (by decide)).1
    have hboth : row'.userId=row.userId ∧ row'.familyId=row.familyId := by
      have huser := congrArg RefreshToken.userId hsame
      have hfamily := congrArg RefreshToken.familyId hsame
      exact ⟨huser,hfamily⟩
    simpa only [Rooted,hboth.1,hboth.2] using hrooted
  | userSessions =>
    have hsame : asOpened row'=asOpened row := (hlater (by decide)).1
    have hboth : row'.userId=row.userId ∧ row'.refreshFamilyId=row.refreshFamilyId := by
      have huser := congrArg UserSession.userId hsame
      have hfamily := congrArg UserSession.refreshFamilyId hsame
      exact ⟨huser,hfamily⟩
    rcases hrooted with ⟨old,hold,hopened⟩|hopened
    · exact .inl ⟨old,hold,hsame.trans hopened⟩
    · refine .inr ?_
      rw [hboth.1,hboth.2]
      exact hopened
  | _ => trivial

/-- Every reason is one for the origin. -/
theorem reasons (d : Deployment) (Asked : ClientRequest → Prop) (env : Environment)
    (db : Database authSchema) :
    Reasons (conditions d Asked) (Rooted d Asked db) (Standing d Asked env) where
  mono hsub _ _ hrooted := hrooted.mono hsub
  monoChallenge hsub _ _ hstanding := hstanding.mono hsub
  insert := by
    intro history pid E hknown hlooked t row _ hinsert
    cases t with
    | refreshTokens =>
      rcases hinsert with ⟨client,hasked,hopens⟩|⟨parent,hparent,huser,hfamily⟩
      · exact .inr ⟨pid,client,hasked,hopens.mono hknown⟩
      · have hrooted : Rooted d Asked db history .refreshTokens parent := hlooked _ _ hparent
        show Rooted d Asked db history .refreshTokens row
        simpa only [Rooted,huser,hfamily] using hrooted
    | userSessions =>
      obtain ⟨client,hasked,hopens⟩ := hinsert
      exact .inr ⟨pid,client,hasked,hopens.mono hknown⟩
    | _ => trivial
  change _ _ _ _ _ hlater hrooted := hrooted.later hlater
  challenge := by
    rintro history pid E hknown _ challengeId challenge ⟨client,hasked,hchallenges⟩
    exact .inr ⟨pid,client,hasked,hchallenges.mono hknown⟩

/-- Every session of a run has its origin. -/
structure Originated (d : Deployment) (Asked : ClientRequest → Prop) (env : Environment)
    (db : Database authSchema) (sys : AuthSystem) : Prop where
  /-- A committed token is one of the start, continues a family of the start, or is
  of a family that a request opened. -/
  tokens : ∀ token∈sys.shared.tables.committed .refreshTokens,
    (∃ old∈db .refreshTokens, old.userId=token.userId ∧ old.familyId=token.familyId) ∨
      Opened d Asked sys.history token.userId token.familyId
  /-- A committed session is one of the start, or of a family that a request
  opened. -/
  sessions : ∀ session∈sys.shared.tables.committed .userSessions,
    (∃ old∈db .userSessions, asOpened session=asOpened old) ∨
      Opened d Asked sys.history session.userId session.refreshFamilyId
  /-- The challenges that were redeemed. -/
  challenges : ∀ pid challengeId challenge,
    answered sys.history pid (.external (.redisGet (.loginChallenge challengeId)))
      (some (.challenge challenge)) → Standing d Asked env sys.history challengeId challenge
  /-- The tokens that were handed out. -/
  responses : ∀ pid answer, sys.outcome pid=some (.ok answer) →
    Justified d (answered sys.history pid) answer

/-- However requests overlap, killed ones included, every refresh token and
every session has its origin, and tokens are only handed out with one. -/
theorem sessions_originate (h : authMachine.Reaches (StartsAsked d Asked) (idleSystem env db) sys) :
    Originated d Asked env db sys := by
  have hrows : ∀ t, ∀ row∈db t, Rooted d Asked db [] t row := by
    intro t row hrow
    cases t with
    | refreshTokens => exact .inl ⟨row,hrow,rfl,rfl⟩
    | userSessions => exact .inl ⟨row,hrow,rfl⟩
    | _ => trivial
  obtain ⟨states,hinv,hjustified⟩ := tracked_reaches (reasons d Asked env db)
    (fun _ hasked => keeps_served hasked) hrows
    (fun _ _ entry hentry hvalue => .inl ⟨entry,hentry,hvalue⟩) h
  refine ⟨fun _ hr => hinv.rows.committed hr,fun _ hr => hinv.rows.committed hr,hinv.stood,
    fun pid answer ho pair hpair => ?_⟩
  rcases hjustified pid answer ho pair hpair with ⟨userId,hopens⟩|⟨userId,parent,hlooked,huser⟩
  · exact .inl ⟨userId,hopens.mono (hinv.known pid)⟩
  · exact .inr ⟨userId,parent,hlooked.mono (hinv.known pid),huser⟩

/-- Two sign-ins, the first with a second factor, overlap. -/
def sampleSignIns : List Directive :=
  [.start (fromClient (.login "c@d" "password1")),.steps 0 9,.finish 0,
    .start (fromClient (.verifyLoginChallenge "10" none (some "ABCD-EFGH"))),
    .start (fromClient (.login "a@b" "password1")),.steps 1 12,.steps 2 19,.steps 1 13,
    .finish 1,.finish 2]

/-- The requests of the sample. -/
def SampleAsked (client : ClientRequest) : Prop := .start client∈sampleSignIns

/-- Two sign-ins, one with the second factor, and the tokens they left. -/
theorem sessions_originate_sign_ins : ∃ sys : AuthSystem,
    (sys.shared.tables.committed .refreshTokens).length=2 ∧
      Originated sampleDeployment SampleAsked sampleEnvironment
        (sampleDatabase [sampleUser,sampleUser2fa] [sampleSecret] [sampleCode]) sys := by
  have hlength : (follow sampleDeployment (fun _ _ => true) sampleEnvironment
      (sampleDatabase [sampleUser,sampleUser2fa] [sampleSecret] [sampleCode]) sampleSignIns).map
      (fun sys => (sys.shared.tables.committed .refreshTokens).length)=some 2 := by
    decide +kernel
  obtain ⟨sys,hsys,hcount⟩ := Option.map_eq_some_iff.mp hlength
  exact ⟨sys,hcount,sessions_originate (reaches_of_lines (fun _ h => h) hsys)⟩

end Runs

end BackendPlatform.SignInOrigins
