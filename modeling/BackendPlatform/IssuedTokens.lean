import BackendPlatform.SignInOrigins
import BackendPlatform.TokenPolicies

/-!
# Issued tokens in all services

However requests overlap, the claims of every access token that a request hands
out pass the token checks of authentication service, gateway and user service
for the same user and session until it expires, and those of the refresh token
that comes with it the checks of a renewal for the same user, session and
family, but nowhere those of an access token. The services share key, issuer and
audience. What is checked after the token, a revoked session, an inactive user
or a rotated row, is left to them.
-/

set_option autoImplicit false

namespace BackendPlatform.IssuedTokens

open ProgramTrees InterleavedRuns TransactionalTables RowLocking
open AuthRecords AuthEffects AuthRepositories AuthServices AuthFlows AuthFootprints
open ConcurrentRequests EvidencedRequests
open JWTService RefreshTokenService AuthService SignInOrigins

section Tokens

/-- The claims of an access token. -/
def accessPayload (d : Deployment) (subject sessionId jti : UUID) (now : Instant) :
    TokenPayload where
  sub := subject.str
  jti := jti.str
  iss := d.settings.jwtIssuer
  aud := d.settings.jwtAudience
  iat := now/1000000
  nbf := now/1000000
  exp := (now+seconds d.settings.jwtAccessTtlSeconds)/1000000
  type := .access
  sid := some sessionId.str
  familyId := none

/-- The claims of a refresh token. -/
def refreshPayload (d : Deployment) (subject sessionId familyId jti : UUID) (now : Instant) :
    TokenPayload where
  sub := subject.str
  jti := jti.str
  iss := d.settings.jwtIssuer
  aud := d.settings.jwtAudience
  iat := now/1000000
  nbf := now/1000000
  exp := (now+seconds d.settings.jwtRefreshTtlSeconds)/1000000
  type := .refresh
  sid := some sessionId.str
  familyId := some familyId.str

/-- An optional claim, left out when it is missing. -/
def claim (name : String) : Option String → TokenPolicies.Payload
  | none => []
  | some text => [(name,.str text)]

/-- The text of a kind of token. -/
def typeText : TokenType → String
  | .access => "access"
  | .refresh => "refresh"

/-- The JSON object of claims. -/
def claims (payload : TokenPayload) : TokenPolicies.Payload :=
  [("sub",.str payload.sub),("jti",.str payload.jti),("iss",.str payload.iss),
    ("aud",.str payload.aud),("iat",.int payload.iat),("nbf",.int payload.nbf),
    ("exp",.int payload.exp),("type",.str (typeText payload.type))]++
    claim "sid" payload.sid++claim "family_id" payload.familyId

/-- A time claim compared with an instant. -/
def timeClaim (payload : TokenPolicies.Payload) (name : String) (p : ℤ → Bool) : Bool :=
  match TokenPolicies.get payload name with
  | .int n => p n
  | _ => false

/-- The checks of PyJWT in the three services, which share key, issuer and
audience; instants are microseconds. -/
def decoding (d : Deployment) : TokenPolicies.Decoding where
  verify := fun payload time =>
    timeClaim payload "iat" (fun n => n*1000000≤time) &&
      timeClaim payload "nbf" (fun n => n*1000000≤time) &&
      timeClaim payload "exp" (fun n => time<n*1000000) &&
      (TokenPolicies.get payload "iss").isText d.settings.jwtIssuer &&
      (TokenPolicies.get payload "aud").isText d.settings.jwtAudience
  uuid := fun text => (UUID.parse text).map (·.int)
  container := fun _ => ""

/-- The token checks of all three services take the claims for an access token of
this user and session. -/
structure Understood (d : Deployment) (payload : TokenPayload) (subject sessionId : UUID)
    (time : Instant) : Prop where
  /-- The check of the model of the authentication service. -/
  flows : refusal d payload .access time=none
  /-- `get_current_user`. -/
  auth : TokenPolicies.AuthService.currentIdentity (decoding d) (claims payload) time=
    some ⟨subject.int,sessionId.int⟩
  /-- The gateway. -/
  gateway : (TokenPolicies.ApiGateway.decodeAccessToken (decoding d) (claims payload) time).map
    TokenPolicies.AccessTokenClaims.identity=some ⟨subject.int,sessionId.int⟩
  /-- The user service. -/
  user : (TokenPolicies.UserService.decodeAccessToken (decoding d) (claims payload) time).map
    TokenPolicies.AccessTokenClaims.identity=some ⟨subject.int,sessionId.int⟩

/-- The token checks of no service take the claims for an access token. -/
structure Misfit (d : Deployment) (payload : TokenPayload) (time : Instant) : Prop where
  /-- The check of the model of the authentication service. -/
  flows : (refusal d payload .access time).isSome=true
  /-- `get_current_user`. -/
  auth : TokenPolicies.AuthService.currentIdentity (decoding d) (claims payload) time=none
  /-- The gateway. -/
  gateway : (TokenPolicies.ApiGateway.decodeAccessToken (decoding d) (claims payload) time).isNone=
    true
  /-- The user service. -/
  user : (TokenPolicies.UserService.decodeAccessToken (decoding d) (claims payload) time).isNone=
    true

variable {d : Deployment} {subject sessionId familyId jti : UUID} {now time : Instant}

/-- The library checks of signed claims come down to their three times. -/
theorem verify_claims (payload : TokenPayload) (hiss : payload.iss=d.settings.jwtIssuer)
    (haud : payload.aud=d.settings.jwtAudience) :
    (decoding d).verify (claims payload) time=
      (decide (seconds payload.iat≤time) && decide (seconds payload.nbf≤time) &&
        decide (time<seconds payload.exp)) := by
  have hiat : TokenPolicies.get (claims payload) "iat"=.int payload.iat := rfl
  have hnbf : TokenPolicies.get (claims payload) "nbf"=.int payload.nbf := rfl
  have hexp : TokenPolicies.get (claims payload) "exp"=.int payload.exp := rfl
  have hissuer : TokenPolicies.get (claims payload) "iss"=.str payload.iss := rfl
  have haudience : TokenPolicies.get (claims payload) "aud"=.str payload.aud := rfl
  have hle : ∀ n t : ℕ, ((n : ℤ)*1000000≤(t : ℤ)) ↔ seconds n≤t := by
    intro n t
    unfold seconds
    omega
  have hlt : ∀ n t : ℕ, ((t : ℤ)<(n : ℤ)*1000000) ↔ t<seconds n := by
    intro n t
    unfold seconds
    omega
  simp only [decoding,timeClaim,hiat,hnbf,hexp,hissuer,haudience,TokenPolicies.Json.isText,hiss,
    haud,decide_true,Bool.and_true,hle,hlt]

/-- The times of a token hold. -/
theorem claimsHold_of_times {payload : TokenPayload} (hiss : payload.iss=d.settings.jwtIssuer)
    (haud : payload.aud=d.settings.jwtAudience) (hiat : seconds payload.iat≤time)
    (hnbf : seconds payload.nbf≤time) (hexp : time<seconds payload.exp) :
    claimsHold d payload time=true ∧ (decoding d).verify (claims payload) time=true := by
  constructor
  · simp [claimsHold,hiss,haud,hiat,hnbf,hexp]
  · rw [verify_claims payload hiss haud]
    simp [hiat,hnbf,hexp]

/-- Every claim a service asks for is there. -/
theorem claims_present (d : Deployment) (subject sessionId jti : UUID) (now : Instant) :
    ∀ name∈["sub","jti","sid","type","iss","aud","iat","nbf","exp"], (TokenPolicies.get
      (claims (accessPayload d subject sessionId jti now)) name).isNone=false := by
  have hall : (["sub","jti","sid","type","iss","aud","iat","nbf","exp"].all fun name =>
      !(TokenPolicies.get (claims (accessPayload d subject sessionId jti now)) name).isNone)=true :=
    rfl
  intro name hname
  simpa using List.all_eq_true.mp hall name hname

/-- An access token is understood from its issue to its expiry. -/
theorem understood_access (hissued : seconds (now/1000000)≤time)
    (hfresh : time<seconds ((now+seconds d.settings.jwtAccessTtlSeconds)/1000000)) :
    Understood d (accessPayload d subject sessionId jti now) subject sessionId time := by
  obtain ⟨hholds,hverify⟩ : claimsHold d (accessPayload d subject sessionId jti now) time=true ∧
      (decoding d).verify (claims (accessPayload d subject sessionId jti now)) time=true :=
    claimsHold_of_times rfl rfl hissued hissued hfresh
  have huuid : ∀ id : UUID, TokenPolicies.uuidOf (decoding d) (.str id.str)=some id.int :=
    fun id => by simp [TokenPolicies.uuidOf,TokenPolicies.pyStr,decoding]
  have hsub : TokenPolicies.uuidOf (decoding d) (TokenPolicies.get
      (claims (accessPayload d subject sessionId jti now)) "sub")=some subject.int := huuid subject
  have hjti : TokenPolicies.uuidOf (decoding d) (TokenPolicies.get
      (claims (accessPayload d subject sessionId jti now)) "jti")=some jti.int := huuid jti
  have hsid : TokenPolicies.uuidOf (decoding d) (TokenPolicies.get
      (claims (accessPayload d subject sessionId jti now)) "sid")=some sessionId.int :=
    huuid sessionId
  have hchecks : TokenPolicies.Plausible (decoding d)
      (claims (accessPayload d subject sessionId jti now)) time :=
    ⟨hverify,claims_present d subject sessionId jti now,rfl,Option.isSome_of_eq_some hsub,
      Option.isSome_of_eq_some hsid⟩
  have hdecoded := TokenPolicies.decodeAccessToken_eq_some.mpr
    ⟨hchecks,Option.isSome_of_eq_some hjti,hsub,hsid⟩
  refine ⟨?_,TokenPolicies.currentIdentity_eq_some.mpr ⟨hchecks,?_,hsub,hsid⟩,hdecoded,hdecoded⟩
  · rw [refusal,hholds]
    rfl
  · exact ⟨rfl,rfl,rfl,.inl rfl⟩

/-- A refresh token is never taken for an access token. -/
theorem misfit_refresh : Misfit d (refreshPayload d subject sessionId familyId jti now) time := by
  have hnot : ¬TokenPolicies.Plausible (decoding d)
      (claims (refreshPayload d subject sessionId familyId jti now)) time := by
    rintro ⟨-,-,htype,-⟩
    have htext : TokenPolicies.Json.isText (.str "refresh") "access"=true := htype
    exact absurd htext (by decide)
  have hdecoded : (TokenPolicies.ApiGateway.decodeAccessToken (decoding d)
      (claims (refreshPayload d subject sessionId familyId jti now)) time).isNone=true := by
    cases hclaims : TokenPolicies.ApiGateway.decodeAccessToken (decoding d)
      (claims (refreshPayload d subject sessionId familyId jti now)) time with
    | none => rfl
    | some found =>
      have hidentity := congrArg (Option.map TokenPolicies.AccessTokenClaims.identity) hclaims
      exact absurd (TokenPolicies.decodeAccessToken_eq_some.mp hidentity).1 hnot
  refine ⟨?_,?_,hdecoded,hdecoded⟩
  · unfold refusal
    split
    · rfl
    · rfl
  · cases hidentity : TokenPolicies.AuthService.currentIdentity (decoding d)
      (claims (refreshPayload d subject sessionId familyId jti now)) time with
    | none => rfl
    | some found => exact absurd (TokenPolicies.currentIdentity_eq_some.mp hidentity).1 hnot

/-- The claims let the service renew this session of the user. -/
structure Renewable (d : Deployment) (payload : TokenPayload) (subject sessionId familyId : UUID)
    (time : Instant) : Prop where
  /-- They are accepted. -/
  accepted : refusal d payload .refresh time=none
  /-- They name user, session and family. -/
  ids : ∃ jti, refreshIds ⟨payload.sub,payload.jti,payload.type,payload.sid,payload.familyId⟩=
    .pure ⟨jti,familyId,sessionId,subject⟩

/-- The claims of a refresh token pass for its session from its issue to its
expiry. -/
theorem renewable_refresh (hissued : seconds (now/1000000)≤time)
    (hfresh : time<seconds ((now+seconds d.settings.jwtRefreshTtlSeconds)/1000000)) :
    Renewable d (refreshPayload d subject sessionId familyId jti now) subject sessionId familyId
      time := by
  have hholds : claimsHold d (refreshPayload d subject sessionId familyId jti now) time=true :=
    (claimsHold_of_times rfl rfl hissued hissued hfresh).1
  refine ⟨?_,jti,?_⟩
  · rw [refusal,hholds]
    rfl
  · simp [refreshIds,parseIds,refreshPayload]

end Tokens

section Requests

/-- Any effect is allowed. -/
def anything : Conditions := ⟨fun _ _ _ => True,fun _ _ _ _ => True,fun _ _ _ => True⟩

variable {d : Deployment} {E E' : Answers} {α : Type}

/-- Without conditions every effect is justified. -/
theorem provides_anything (E : Answers) (op : Effect) : Provides anything E op := by
  cases op with
  | external op =>
    cases op with
    | redisSet key value expiry =>
      cases key with
      | loginChallenge challengeId => cases value <;> trivial
      | _ => trivial
    | _ => trivial
  | sql stmt =>
    cases stmt with
    | insert t row => cases t <;> trivial
    | update t q f => exact fun _ _ => trivial
    | _ => trivial

/-- Without conditions every request keeps them. -/
theorem keeps_any (p : Action α) : Keeps anything E p fun _ _ => True := by
  induction p generalizing E with
  | pure a => exact keeps_pure trivial
  | raise e => exact keeps_raise e
  | call op k ih => exact keeps_call (provides_anything E op) fun r _ => ih r

/-- The tokens of a pair name user, session and family. -/
structure Names (d : Deployment) (E : Answers) (subject : UUID) (pair : TokenPair) : Prop where
  /-- The access token. -/
  access : ∃ jti now, E (.external .now) now ∧
    pair.accessToken=.signed (accessPayload d subject pair.sessionId jti now) 0
  /-- The refresh token. -/
  refresh : ∃ jti now, E (.external .now) now ∧ pair.refreshToken=
    .signed (refreshPayload d subject pair.sessionId pair.refreshFamilyId jti now) 0

/-- The request knows the user: it looked up the row, or a token of the family. -/
def Knows (E : Answers) (subject : UUID) (pair : TokenPair) : Prop :=
  (∃ user, Looked E .users user ∧ user.id=subject) ∨
    ∃ record, Looked E .refreshTokens record ∧ record.userId=subject ∧
      record.familyId=pair.refreshFamilyId

/-- The tokens name a user that the request knows. -/
def Founded (d : Deployment) (E : Answers) (pair : TokenPair) : Prop :=
  ∃ subject, Knows E subject pair ∧ Names d E subject pair

/-- A pair stays founded as answers are added. -/
theorem Founded.mono (hle : E≤E') {pair : TokenPair} (h : Founded d E pair) :
    Founded d E' pair := by
  obtain ⟨subject,hknows,⟨jti,now,hnow,haccess⟩,jti',now',hnow',hrefresh⟩ := h
  refine ⟨subject,?_,⟨jti,now,hle _ _ hnow,haccess⟩,jti',now',hle _ _ hnow',hrefresh⟩
  rcases hknows with ⟨user,hlooked,hid⟩|⟨record,hlooked,hrecord⟩
  · exact .inl ⟨user,hlooked.mono hle,hid⟩
  · exact .inr ⟨record,hlooked.mono hle,hrecord⟩

/-- The access token is signed over the time that the clock gave. -/
theorem keeps_issueAccessToken (subject sessionId : UUID) :
    Keeps anything E (issueAccessToken d subject sessionId) fun E' issued => ∃ jti now,
      E' (.external .now) now ∧ issued.1=.signed (accessPayload d subject sessionId jti now) 0 := by
  refine keeps_utcNow.bind fun E₁ now _ hnow => keeps_uuid4.bind fun E₂ jti hle₂ _ =>
    keeps_call (provides_anything _ _) fun token htoken => keeps_pure ⟨jti,now,?_,htoken⟩
  exact (hle₂.trans (E₂.le_add _ _)) _ _ hnow

/-- The refresh token is signed over the time that the clock gave. -/
theorem keeps_issueRefreshToken (subject sessionId familyId jti : UUID) :
    Keeps anything E (issueRefreshToken d subject sessionId familyId jti) fun E' issued => ∃ now,
      E' (.external .now) now ∧
        issued.1=.signed (refreshPayload d subject sessionId familyId jti now) 0 := by
  refine keeps_utcNow.bind fun E₁ now _ hnow =>
    keeps_call (provides_anything _ _) fun token htoken => keeps_pure ⟨now,?_,htoken⟩
  exact E₁.le_add _ _ _ _ hnow

/-- A sign-in issues a pair for the user that was looked up. -/
theorem keeps_issueForUser {user : User} (hlooked : Looked E .users user) (ip ua : Option String) :
    Keeps anything E (issueForUser d user.id ip ua) (Founded d) := by
  refine keeps_uuid4.bind fun E₁ familyId hle₁ _ => (keeps_any _).bind fun E₂ session hle₂ _ =>
    keeps_uuid4.bind fun E₃ jti hle₃ _ => (keeps_issueRefreshToken _ _ _ _).bind
    fun E₄ refresh hle₄ hrefresh => (keeps_any _).bind fun E₅ _ hle₅ _ =>
    (keeps_issueAccessToken _ _).bind fun E₆ access hle₆ haccess => keeps_pure ?_
  obtain ⟨now,hnow,hrefresh⟩ := hrefresh
  refine ⟨user.id,.inl ⟨user,?_,rfl⟩,haccess,jti,now,(hle₅.trans hle₆) _ _ hnow,hrefresh⟩
  exact hlooked.mono (hle₁.trans (hle₂.trans (hle₃.trans (hle₄.trans (hle₅.trans hle₆)))))

/-- A renewal issues a pair for the token that was looked up. -/
theorem keeps_exchange {record : RefreshToken} {ids : RefreshIds}
    (hlooked : Looked E .refreshTokens record) (huser : record.userId=ids.userId)
    (hfamily : record.familyId=ids.familyId) (ip ua : Option String) :
    Keeps anything E (exchange d record ids ip ua) (Founded d) := by
  refine keeps_uuid4.bind fun E₁ jti hle₁ _ => (keeps_issueRefreshToken _ _ _ _).bind
    fun E₂ refresh hle₂ hrefresh => (keeps_any _).bind fun E₃ _ hle₃ _ =>
    (keeps_any _).bind fun E₄ _ hle₄ _ => (keeps_any _).bind fun E₅ _ hle₅ _ =>
    (keeps_issueAccessToken _ _).bind fun E₆ access hle₆ haccess => keeps_pure ?_
  obtain ⟨now,hnow,hrefresh⟩ := hrefresh
  have hlater : E₂≤E₆ := hle₃.trans (hle₄.trans (hle₅.trans hle₆))
  exact ⟨ids.userId,.inr ⟨record,hlooked.mono (hle₁.trans (hle₂.trans hlater)),huser,hfamily⟩,
    haccess,jti,now,hlater _ _ hnow,hrefresh⟩

/-- The tokens of a sign-in step are founded. -/
def StepFounded (d : Deployment) (E : Answers) (result : LoginStepResult) : Prop :=
  ∀ pair, result.tokens=some pair → Founded d E pair

/-- Without conditions a failure may be logged. -/
theorem logs_anything : LogsFailures anything := fun _ _ _ => trivial

/-- A login returns a founded pair or a challenge. -/
theorem keeps_signIn {client : ClientRequest} {email password : String}
    (hrequest : client.request=.login email password) :
    Keeps anything E (login d email password client.ipAddress client.userAgent) (StepFounded d) :=
  keeps_login logs_anything hrequest (fun _ _ _ _ =>
      (keeps_rejectPassword logs_anything fun _ _ => keeps_any _).elim)
    fun _ _ _ hsigns => keeps_grantAccess (fun _ _ _ => keeps_any _)
      (fun _ hle _ => keeps_issueForUser (hsigns.looked.mono hle) _ _) (fun _ _ _ => trivial)
      fun _ _ _ hle => Founded.mono hle

/-- The second step of a sign-in returns a founded pair. -/
theorem keeps_answer {client : ClientRequest} {challengeId : String} {totp backup : Option String}
    (hrequest : client.request=.verifyLoginChallenge challengeId totp backup) :
    Keeps anything E (verifyLoginChallenge d challengeId totp backup client.ipAddress
      client.userAgent) (Founded d) :=
  keeps_verifyLoginChallenge logs_anything hrequest fun _ _ _ _ _ hredeems =>
    keeps_redeemChallenge (fun _ => keeps_any _)
      (fun _ hle => keeps_issueForUser (hredeems.looked.mono hle) _ _) (fun _ _ => trivial)
      fun _ _ _ hle => Founded.mono hle

/-- A renewal returns a founded pair. -/
theorem keeps_renew (token : RawToken) (ip ua : Option String) :
    Keeps anything E (refreshTokens d token ip ua) (Founded d) := by
  refine keeps_refreshTokens logs_anything ?_ (fun _ _ _ => trivial)
    fun _ _ _ hle => Founded.mono hle
  exact keeps_rotate (fun _ _ _ => (keeps_any _).bind fun _ _ _ _ => (keeps_any _).bind
      fun _ _ _ _ => keeps_raise _)
    fun E' record ids _ h => keeps_exchange h.looked h.user h.family ip ua

/-- The tokens of every response are founded. -/
theorem keeps_served (client : ClientRequest) :
    Keeps anything E (served d client) fun E' answer => ∀ pair,
      issuedTokens answer.response=some pair → Founded d E' pair := by
  have hrespond : Keeps anything E (respond d client) fun E' response => ∀ pair,
      issuedTokens response=some pair → Founded d E' pair := by
    have htokens : ∀ {α : Type} {p : Action α} {f : α → Response},
        (∀ a, issuedTokens (f a)=none) →
        Keeps anything E (p.bind fun a => .pure (f a)) fun E' response => ∀ pair,
          issuedTokens response=some pair → Founded d E' pair := by
      intro α p f hnone
      refine (keeps_any p).bind fun E' a _ _ => keeps_pure fun pair hpair => ?_
      exact absurd ((hnone a).symm.trans hpair) (by rintro ⟨⟩)
    have hpair : ∀ {p : Action TokenPair}, Keeps anything E p (Founded d) →
        Keeps anything E (p.bind fun pair => .pure (.tokens pair)) fun E' response => ∀ pair,
          issuedTokens response=some pair → Founded d E' pair := by
      intro p hp
      refine hp.bind fun E' pair _ hfounded => keeps_pure ?_
      rintro _ ⟨⟩
      exact hfounded
    obtain ⟨request,ip,ua⟩ := client
    cases request with
    | login email password =>
      exact (keeps_signIn rfl).bind fun _ _ _ hfounded => keeps_pure hfounded
    | verifyLoginChallenge challengeId totp backup =>
      exact hpair (keeps_answer rfl)
    | refreshTokens token => exact hpair (keeps_renew token ip ua)
    | register email password => exact htokens fun _ => rfl
    | revokeRefreshToken token revokeFamily => exact htokens fun _ => rfl
    | requestReset email => exact htokens fun _ => rfl
    | resetPassword email code newPassword => exact htokens fun _ => rfl
    | currentSession authorization => exact htokens fun _ => rfl
    | setupTwoFactor authorization => exact htokens fun _ => rfl
    | enableTwoFactor authorization totpCode => exact htokens fun _ => rfl
    | disableTwoFactor authorization password totp backup => exact htokens fun _ => rfl
    | regenerateBackupCodes authorization totp backup => exact htokens fun _ => rfl
  exact hrespond.bind fun _ _ _ hfounded => keeps_pure hfounded

end Requests

section Runs

variable {d : Deployment} {env : Environment} {db : Database authSchema} {sys : AuthSystem}

/-- The claims of a pair pass the checks for its user until its tokens expire. -/
structure Usable (d : Deployment) (E : Answers) (subject : UUID) (pair : TokenPair) : Prop where
  /-- The request knows the user. -/
  known : Knows E subject pair
  /-- The claims of the access token pass in all services from its issue to its
  expiry. -/
  access : ∃ payload now, pair.accessToken=.signed payload 0 ∧ E (.external .now) now ∧
    ∀ time, seconds (now/1000000)≤time →
      time<seconds ((now+seconds d.settings.jwtAccessTtlSeconds)/1000000) →
      Understood d payload subject pair.sessionId time
  /-- Those of the refresh token pass as long for a renewal, and for nothing else. -/
  refresh : ∃ payload now, pair.refreshToken=.signed payload 0 ∧ E (.external .now) now ∧
    ∀ time, Misfit d payload time ∧ (seconds (now/1000000)≤time →
      time<seconds ((now+seconds d.settings.jwtRefreshTtlSeconds)/1000000) →
      Renewable d payload subject pair.sessionId pair.refreshFamilyId time)

/-- A founded pair passes the token checks in its time. -/
theorem Founded.usable {E : Answers} {pair : TokenPair} (h : Founded d E pair) :
    ∃ subject, Usable d E subject pair := by
  obtain ⟨subject,hknows,⟨jti,now,hnow,haccess⟩,jti',now',hnow',hrefresh⟩ := h
  refine ⟨subject,hknows,⟨_,now,haccess,hnow,fun time => ?_⟩,_,now',hrefresh,hnow',
    fun time => ⟨misfit_refresh,?_⟩⟩
  · exact understood_access
  · exact renewable_refresh

/-- There is nothing to know about rows. -/
theorem reasons_anything : Reasons anything (fun _ _ _ => True) fun _ _ _ => True where
  mono _ _ _ _ := trivial
  monoChallenge _ _ _ _ := trivial
  insert _ _ _ _ _ _ := trivial
  change _ _ _ _ _ _ _ := trivial
  challenge _ _ _ _ _ := trivial

/-- However requests overlap, killed ones included, the claims of every token pair
that is handed out pass the checks of all services until it expires. -/
theorem issued_tokens_fit (h : Reached d env db sys) (pid : ℕ) (answer : Served)
    (ho : sys.outcome pid=some (.ok answer)) (pair : TokenPair)
    (hpair : issuedTokens answer.response=some pair) :
    ∃ subject, Usable d (answered sys.history pid) subject pair := by
  have hstarts : authMachine.Reaches (StartsAsked d fun _ => True) (idleSystem env db) sys := by
    refine h.mono fun _ mv hc => ?_
    cases mv with
    | spawn program =>
      obtain ⟨client,rfl⟩ := hc
      exact ⟨client,trivial,rfl⟩
    | _ => trivial
  obtain ⟨states,hinv,hfounded⟩ := tracked_reaches reasons_anything
    (fun client _ => keeps_served client) (fun _ _ _ => trivial) (fun _ _ _ _ _ => trivial) hstarts
  exact ((hfounded pid answer ho pair hpair).mono (hinv.known pid)).usable

/-- The tokens that a request handed out. -/
def handedOut (sys : AuthSystem) (pid : ℕ) : Option TokenPair :=
  match sys.outcome pid with
  | some (.ok answer) => issuedTokens answer.response
  | _ => none

/-- A pair that was handed out is in the answer of its request. -/
theorem handedOut_eq_some {pid : ℕ} {pair : TokenPair} (h : handedOut sys pid=some pair) :
    ∃ answer, sys.outcome pid=some (.ok answer) ∧ issuedTokens answer.response=some pair := by
  unfold handedOut at h
  split at h
  · exact ⟨_,‹_›,h⟩
  · cases h

/-- A sign-in of the sample account and the pair it got. -/
theorem issued_tokens_fit_login : ∃ (sys : AuthSystem) (pair : TokenPair) (subject : UUID),
    handedOut sys 0=some pair ∧
      Usable sampleDeployment (answered sys.history 0) subject pair := by
  have hpair : ((follow sampleDeployment (fun _ _ => true) sampleEnvironment
      (sampleDatabase [sampleUser] [] []) [.start (fromClient (.login "a@b" "password1")),
        .steps 0 19,.finish 0]).map fun sys => (handedOut sys 0).isSome)=some true := by
    decide +kernel
  obtain ⟨sys,hsys,hsome⟩ := Option.map_eq_some_iff.mp hpair
  obtain ⟨pair,hhanded⟩ := Option.isSome_iff_exists.mp hsome
  obtain ⟨answer,houtcome,hissued⟩ := handedOut_eq_some hhanded
  obtain ⟨subject,husable⟩ := issued_tokens_fit (reached_of_follow hsys) 0 answer houtcome pair
    hissued
  exact ⟨sys,pair,subject,hhanded,husable⟩

end Runs

end BackendPlatform.IssuedTokens
