import BackendPlatform.AccountChanges

/-!
# What the audit trail says

However requests overlap, every success in the audit trail was there at the
start or was logged by one request from the client that it names, and that
request had the evidence for it: the rows it looked up, the tokens, passwords
and codes it verified, and the answers it was given.
-/

set_option autoImplicit false

namespace BackendPlatform.AuditTrail

open ProgramTrees InterleavedRuns TransactionalTables RowLocking
open AuthRecords AuthEffects AuthRepositories AuthServices AuthFlows AuthFootprints
open ConcurrentRequests EvidencedRequests SignInOrigins AccountChanges
open AuthService RefreshTokenService TwoFactorService PasswordResetService Endpoints

section Evidence

/-- A success that a request logs. -/
def success (d : Deployment) (client : ClientRequest) (eventType : String) (userId : Option UUID)
    (payload : List (String×PyValue)) : AuditEvent :=
  ⟨eventType,"success",userId,userId,client.ipAddress,client.userAgent,
    AuditService.sanitizePayload d payload⟩

/-- The request has the evidence for what it logs. -/
inductive Truth (d : Deployment) (E : Answers) (client : ClientRequest) : AuditEvent → Prop
  /-- It created the account. -/
  | register (user : User) (email password : String)
      (h : Registers d E client user email password) :
      Truth d E client
        (success d client "auth.register.success" (some user.id) [("email",.str user.email)])
  /-- It signed the user in, who has no second factor. -/
  | login (user : User) (email password : String) (h : SignsIn d E client user email password)
      (hplain : user.twoFactorEnabled=false) :
      Truth d E client (success d client "auth.login.success" (some user.id) [])
  /-- It redeemed a challenge of the user. -/
  | challenge (user : User) (challengeId : String) (challenge : LoginChallenge)
      (totp backup : Option String)
      (h : Redeems d E client user challengeId challenge totp backup) :
      Truth d E client
        (success d client "auth.login.success" (some user.id) [("via",.str "2fa_challenge")])
  /-- It exchanged a refresh token. -/
  | refresh (token : RawToken) (record : RefreshToken) (ids : RefreshIds)
      (hrequest : client.request=.refreshTokens token) (h : Exchanges d E token record ids) :
      Truth d E client (success d client "auth.refresh.success" none [])
  /-- It revoked a refresh token, or found none to revoke. -/
  | revoke (token : RawToken) (revokeFamily : Bool) (payload : List (String×PyValue))
      (hrequest : client.request=.revokeRefreshToken token revokeFamily)
      (h : Revokes d E token payload) :
      Truth d E client (success d client "auth.refresh.revoked" none payload)
  /-- It had a reset code delivered to the user. -/
  | requestReset (user : User) (record : PasswordResetToken) (email : String) (code : ℕ)
      (h : Asks d E client user record email code) (hdelivered : Delivered E user code) :
      Truth d E client
        (success d client "auth.password_reset.requested" (some user.id)
          [("email",.str user.email)])
  /-- It had a reset code of the user. -/
  | resetPassword (user : User) (record : PasswordResetToken) (email code newPassword : String)
      (h : Resets d E client user record email code newPassword) :
      Truth d E client (success d client "auth.password_reset.completed" (some user.id) [])
  /-- It was one of the user. -/
  | setup (user : User) (authorization : Authorization)
      (hrequest : client.request=.setupTwoFactor authorization)
      (h : Authenticates d E authorization user) :
      Truth d E client (success d client "auth.2fa.setup.initiated" (some user.id) [])
  /-- It confirmed the secret of the user. -/
  | enable (user : User) (authorization : Authorization) (totpCode : String)
      (record : TwoFactorSecret) (h : Enables d E client user authorization totpCode record) :
      Truth d E client (success d client "auth.2fa.enabled" (some user.id) [])
  /-- It had the password and the second factor of the user. -/
  | disable (user : User) (authorization : Authorization) (password : String)
      (totp backup : Option String)
      (h : Disables d E client user authorization password totp backup) :
      Truth d E client (success d client "auth.2fa.disabled" (some user.id) [])
  /-- It had the second factor of the user. -/
  | regenerate (user : User) (authorization : Authorization) (totp backup : Option String)
      (hrequest : client.request=.regenerateBackupCodes authorization totp backup)
      (h : Authenticates d E authorization user) (henabled : user.twoFactorEnabled=true)
      (hfactor : Accepts d E user totp backup) :
      Truth d E client (success d client "auth.2fa.backup.regenerated" (some user.id) [])

variable {d : Deployment} {E E' : Answers} {client : ClientRequest} {event : AuditEvent}

/-- Evidence of a sign-out survives further answers. -/
theorem revokes_mono (hle : E≤E') {token : RawToken} {payload : List (String×PyValue)}
    (h : Revokes d E token payload) : Revokes d E' token payload := by
  rcases h with ⟨hverified,hpayload⟩|⟨record,ids,hpresents,hpayload⟩
  · exact .inl ⟨hverified.mono hle,hpayload⟩
  · exact .inr ⟨record,ids,hpresents.mono hle,hpayload⟩

/-- An event stays true as its request is given more answers. -/
theorem Truth.mono (hle : E≤E') (h : Truth d E client event) : Truth d E' client event := by
  cases h with
  | register user email password h => exact .register user email password (h.mono hle)
  | login user email password h hplain => exact .login user email password (h.mono hle) hplain
  | challenge user challengeId challenge totp backup h =>
    exact .challenge user challengeId challenge totp backup (h.mono hle)
  | refresh token record ids hrequest h => exact .refresh token record ids hrequest (h.mono hle)
  | revoke token revokeFamily payload hrequest h =>
    exact .revoke token revokeFamily payload hrequest (revokes_mono hle h)
  | requestReset user record email code h hdelivered =>
    exact .requestReset user record email code (h.mono hle) (hle _ _ hdelivered)
  | resetPassword user record email code newPassword h =>
    exact .resetPassword user record email code newPassword (h.mono hle)
  | setup user authorization hrequest h => exact .setup user authorization hrequest (h.mono hle)
  | enable user authorization totpCode record h =>
    exact .enable user authorization totpCode record (h.mono hle)
  | disable user authorization password totp backup h =>
    exact .disable user authorization password totp backup (h.mono hle)
  | regenerate user authorization totp backup hrequest h henabled hfactor =>
    exact .regenerate user authorization totp backup hrequest (h.mono hle) henabled
      (hfactor.mono hle)

end Evidence

section Requests

/-- A success is logged only with the evidence for it. -/
def Inserts (d : Deployment) (Asked : ClientRequest → Prop) (E : Answers) :
    (t : Table) → Row t → Prop
  | .auditEvents,event =>
    event.outcome="success" → ∃ client, Asked client ∧ Truth d E client event
  | _,_ => True

/-- The reasons for audit events, which are never updated. -/
def conditions (d : Deployment) (Asked : ClientRequest → Prop) : Conditions where
  insert := Inserts d Asked
  change _ t _ _ := t≠.auditEvents
  challenge _ _ _ := True

variable {d : Deployment} {Asked : ClientRequest → Prop} {E : Answers} {client : ClientRequest}

/-- A failure event needs no evidence. -/
theorem logsFailures : LogsFailures (conditions d Asked) :=
  fun _ _ hfailure hsuccess => absurd (hfailure.symm.trans hsuccess) (by decide)

/-- Changes of other tables than the audit log need no evidence here. -/
theorem change_aside {t : Table} {row row' : Row t} (h : t≠.auditEvents) :
    (conditions d Asked).change E t row row' := h

/-- An access that leaves the audit trail alone. -/
def Aside (a : Access) : Prop := a≠.insert .auditEvents ∧ a≠.update .auditEvents

instance (a : Access) : Decidable (Aside a) := inferInstanceAs (Decidable (_ ∧ _))

/-- Actions that leave the audit trail alone. -/
theorem keeps_aside {α : Type} {p : Action α} {fp : List Access} (h : Inside p fp)
    (hfp : ∀ a∈fp, Aside a) : Keeps (conditions d Asked) E p fun _ _ => True := by
  refine keeps_allowed h fun a ha => ?_
  have haside : Aside a := hfp a ha
  cases a with
  | insert t =>
    cases t with
    | auditEvents => exact absurd rfl haside.1
    | _ => exact fun _ _ => trivial
  | update t =>
    intro _ _ _ ht
    subst ht
    exact absurd rfl haside.2
  | redisWrite a => exact fun _ _ _ _ => trivial
  | _ => trivial

/-- A login logs success only for a password that matched and no factor in use.
-/
theorem keeps_signIn (hasked : Asked client) {email password : String}
    (hrequest : client.request=.login email password) :
    Keeps (conditions d Asked) E (login d email password client.ipAddress client.userAgent)
      fun _ _ => True :=
  keeps_login logsFailures hrequest
    (fun _ _ _ _ => (keeps_rejectPassword logsFailures fun _ _ =>
      keeps_aside (inside_recordAccountFailure d _ _) (by decide)).elim)
    fun _ user _ hsigns => (keeps_grantAccess (Q := fun _ _ => True)
      (fun _ _ _ => keeps_aside (inside_createLoginChallenge d _ _) (by decide))
      (fun _ _ _ => keeps_aside (inside_issueForUser d _ _ _) (by decide))
      (fun _ hle hplain _ =>
        ⟨client,hasked,.login user.row email password (hsigns.mono hle) hplain⟩)
      fun _ _ _ _ _ => trivial).mono fun _ _ hq => ⟨hq.1,fun _ _ => trivial⟩

/-- The second step logs success only for an accepted factor of the challenged
user. -/
theorem keeps_answer (hasked : Asked client) {challengeId : String} {totp backup : Option String}
    (hrequest : client.request=.verifyLoginChallenge challengeId totp backup) :
    Keeps (conditions d Asked) E (verifyLoginChallenge d challengeId totp backup client.ipAddress
      client.userAgent) fun _ _ => True :=
  keeps_verifyLoginChallenge logsFailures hrequest fun _ user factor challenge _ hredeems =>
    keeps_redeemChallenge (fun _ => keeps_aside (inside_flushFactor factor) (by decide))
      (fun _ _ => keeps_aside (inside_issueForUser d _ _ _) (by decide))
      (fun _ hle _ => ⟨client,hasked,
        .challenge user.row challengeId challenge totp backup (hredeems.mono hle)⟩)
      fun _ _ _ _ _ => trivial

/-- A renewal logs success only for an exchanged refresh token. -/
theorem keeps_renew (hasked : Asked client) {token : RawToken}
    (hrequest : client.request=.refreshTokens token) :
    Keeps (conditions d Asked) E (refreshTokens d token client.ipAddress client.userAgent)
      fun E' _ => ∃ record ids, Exchanges d E' token record ids := by
  refine keeps_refreshTokens logsFailures ?_ ?_ ?_
  · refine keeps_rotate (fun E' _ _ => ?_) fun E' record ids _ h => ?_
    · exact (keeps_aside (inside_revokeTokensWhere _ _) (by decide)).bind fun _ _ _ _ =>
        (keeps_aside (inside_revokeSessionsWhere _) (by decide)).bind fun _ _ _ _ =>
        keeps_raise _
    · exact (keeps_aside (inside_exchange d record ids _ _) (by decide)).mono fun _ _ hq =>
        ⟨hq.1,fun _ _ => ⟨record,ids,h.mono hq.1⟩⟩
  · rintro E' pair ⟨record,ids,h⟩ -
    exact ⟨client,hasked,.refresh token record ids hrequest h⟩
  · rintro E' E'' pair hle ⟨record,ids,h⟩
    exact ⟨record,ids,h.mono hle⟩

/-- A sign-out logs success only for a token that passed its checks. -/
theorem keeps_signOut (hasked : Asked client) {token : RawToken} {revokeFamily : Bool}
    (hrequest : client.request=.revokeRefreshToken token revokeFamily) :
    Keeps (conditions d Asked) E (revokeRefreshToken d token revokeFamily client.ipAddress
      client.userAgent) fun _ _ => True :=
  keeps_revokeRefreshToken
    (fun _ _ => keeps_aside (inside_revokeTokensWhere _ _) (by decide))
    (fun _ _ => keeps_aside (inside_revokeSessionsWhere _) (by decide))
    (fun _ pending => keeps_aside (inside_flushRevocation pending) (by decide))
    fun _ payload h _ => ⟨client,hasked,.revoke token revokeFamily payload hrequest h⟩

/-- The password change of a reset logs success only with the evidence of its
code. -/
theorem keeps_changePassword (hasked : Asked client) {user : LoadedUser}
    {record : PasswordResetToken} (email code : String) {newPassword : String} (now : Instant)
    (identifier account : String)
    (hresets : ∀ E', E≤E' → PasswordService.validatePasswordPolicy d newPassword=.pure () →
      Resets d E' client user.row record email code newPassword) :
    Keeps (conditions d Asked) E (changePassword d user record now newPassword identifier account
      client.ipAddress client.userAgent) fun _ _ => True := by
  refine (keeps_hashPassword newPassword).bind fun E₁ newHash hle₁ hhash =>
    (keeps_aside (inside_flushUpdate .users _ _) (by decide)).bind fun E₂ _ hle₂ _ =>
    (keeps_aside (inside_flushUpdate .passwordResetTokens _ _) (by decide)).bind
      fun E₃ _ hle₃ _ =>
    (keeps_aside (inside_listActiveSessionIdsForUser _) (by decide)).bind fun E₄ _ hle₄ _ =>
    (keeps_aside (inside_revokeTokensWhere _ _) (by decide)).bind fun E₅ _ hle₅ _ =>
    (keeps_aside (inside_revokeSessionsWhere _) (by decide)).bind fun E₆ _ hle₆ _ =>
    (keeps_aside (inside_markAccessSessionsRevoked d _) (by decide)).bind fun E₇ _ hle₇ _ =>
    (keeps_clearFailures _ _).bind fun E₈ _ hle₈ _ => (keeps_clearFailures _ _).bind
    fun E₉ _ hle₉ _ => (keeps_logEvent fun _ => ⟨client,hasked,?_⟩).bind fun _ _ _ _ =>
    keeps_commit
  have hle : E₁≤E₉ := hle₂.trans (hle₃.trans (hle₄.trans (hle₅.trans (hle₆.trans
    (hle₇.trans (hle₈.trans hle₉))))))
  exact .resetPassword user.row record email code newPassword ((hresets E₁ hle₁ hhash.1).mono hle)

/-- Every request keeps to the protocol. -/
theorem keeps_served (hasked : Asked client) :
    Keeps (conditions d Asked) E (served d client) fun _ _ => True := by
  refine Keeps.bind (Q := fun _ _ => True) ?_ fun _ _ _ _ => keeps_pure trivial
  have hdone : ∀ {α : Type} {p : Action α} {f : α → Response} {Q : Answers → α → Prop},
      Keeps (conditions d Asked) E p Q →
      Keeps (conditions d Asked) E (p.bind fun a => .pure (f a)) fun _ _ => True :=
    fun h => h.bind fun _ _ _ _ => keeps_pure trivial
  obtain ⟨request,ip,ua⟩ := client
  cases request with
  | register email password =>
    exact hdone (keeps_register rfl (fun _ _ _ => trivial)
      fun _ user h _ => ⟨_,hasked,.register user email password h⟩)
  | login email password => exact hdone (keeps_signIn hasked rfl)
  | verifyLoginChallenge challengeId totp backup => exact hdone (keeps_answer hasked rfl)
  | refreshTokens token => exact hdone (keeps_renew hasked rfl)
  | revokeRefreshToken token revokeFamily => exact hdone (keeps_signOut hasked rfl)
  | requestReset email =>
    exact hdone (keeps_requestReset rfl (fun _ _ _ _ => change_aside (by decide))
      (fun _ _ _ _ _ => trivial)
      fun _ user record code h hdelivered _ =>
        ⟨_,hasked,.requestReset user record email code h hdelivered⟩)
  | resetPassword email code newPassword =>
    exact hdone (keeps_resetPassword rfl
      (fun _ user _ _ => keeps_aside (inside_refuseCode d _ _ user) (by decide))
      fun _ _ _ now _ hresets => keeps_changePassword hasked email code now _ _ hresets)
  | currentSession authorization =>
    exact hdone (keeps_aside (inside_getCurrentUser d authorization) (by decide))
  | setupTwoFactor authorization =>
    exact hdone (keeps_setupTwoFactor
      (fun _ user => keeps_aside (inside_createSetup d user) (by decide))
      fun _ user h _ => ⟨_,hasked,.setup user authorization rfl h⟩)
  | enableTwoFactor authorization totpCode =>
    exact hdone (keeps_enableTwoFactor rfl (fun _ _ _ _ _ _ => change_aside (by decide))
      (fun _ _ _ => change_aside (by decide))
      fun _ user record h _ => ⟨_,hasked,.enable user authorization totpCode record h⟩)
  | disableTwoFactor authorization password totp backup =>
    exact hdone (keeps_disableTwoFactor rfl
      (fun _ factor => keeps_aside (inside_flushFactor factor) (by decide))
      (fun _ _ _ _ _ => change_aside (by decide))
      fun _ user h _ => ⟨_,hasked,.disable user authorization password totp backup h⟩)
  | regenerateBackupCodes authorization totp backup =>
    exact hdone (keeps_regenerateBackupCodes
      (fun _ factor => keeps_aside (inside_flushFactor factor) (by decide))
      (fun _ _ hashes => keeps_aside (inside_replaceBackupCodes _ hashes) (by decide))
      fun _ user h henabled hfactor _ =>
        ⟨_,hasked,.regenerate user authorization totp backup rfl h henabled hfactor⟩)

/-- A request, given these answers, comes to the INSERT of the event. -/
def Logs (d : Deployment) (client : ClientRequest) (E : Answers) (event : AuditEvent) : Prop :=
  ∃ k, Comes (served d client) E (.call (.sql (.insert .auditEvents event)) k)

/-- The same conditions, with the request named that logs the event. -/
def named (d : Deployment) (Asked : ClientRequest → Prop) : Conditions where
  insert E
    | .auditEvents,event => event.outcome="success" →
      ∃ client, Asked client ∧ Logs d client E event ∧ Truth d E client event
    | _,_ => True
  change := (conditions d Asked).change
  challenge := (conditions d Asked).challenge

/-- Every served request logs its own successes, each with its evidence. -/
theorem keeps_named (hasked : Asked client) :
    Keeps (named d Asked) noAnswers (served d client) fun _ _ => True := by
  have hserved : Keeps (conditions d (·=client)) noAnswers (served d client) fun _ _ => True :=
    keeps_served rfl
  refine Comes.follows (fun E op k hcomes hop => ?_) .start hserved
  cases op with
  | external op =>
    cases op with
    | redisSet key value expiry => cases key <;> cases value <;> trivial
    | _ => trivial
  | sql stmt =>
    cases stmt with
    | insert t row =>
      cases t with
      | auditEvents =>
        intro hsuccess
        obtain ⟨asked,rfl,htruth⟩ := hop hsuccess
        exact ⟨asked,hasked,⟨k,hcomes⟩,htruth⟩
      | _ => trivial
    | _ => exact hop

end Requests

section Runs

variable {d : Deployment} {Asked : ClientRequest → Prop} {env : Environment}
  {db : Database authSchema} {history history' : List (Event authSignature)} {sys : AuthSystem}

/-- The event was logged by this request. -/
def Logged (history : List (Event authSignature)) (pid : ℕ) (event : AuditEvent) : Prop :=
  answered history pid (.sql (.insert .auditEvents event)) Insertion.inserted

/-- A request of the run logged the event and had the evidence for it. -/
def Evidenced (d : Deployment) (Asked : ClientRequest → Prop)
    (history : List (Event authSignature)) (event : AuditEvent) : Prop :=
  ∃ pid client, Asked client ∧ Logs d client (answered history pid) event ∧
    Logged history pid event ∧ Truth d (answered history pid) client event

/-- What the audit trail may hold. -/
def Founded (d : Deployment) (Asked : ClientRequest → Prop) (db : Database authSchema)
    (history : List (Event authSignature)) : (t : Table) → Row t → Prop
  | .auditEvents,event =>
    event∈db .auditEvents ∨ (event.outcome="success" → Evidenced d Asked history event)
  | _,_ => True

/-- The conditions are met by the database of every run and kept by its steps.
-/
theorem reasons (d : Deployment) (Asked : ClientRequest → Prop) (db : Database authSchema) :
    Reasons (named d Asked) (Founded d Asked db) fun _ _ _ => True where
  mono := by
    intro history history' hsub t row hfounded
    cases t with
    | auditEvents =>
      refine hfounded.imp_right fun hevidenced hsuccess => ?_
      obtain ⟨pid,client,hasked,hlogs,hlogged,htruth⟩ := hevidenced hsuccess
      have hle : answered history pid≤answered history' pid := answered_mono hsub pid
      exact ⟨pid,client,hasked,hlogs.imp fun _ h => h.mono hle,hsub hlogged,htruth.mono hle⟩
    | _ => trivial
  monoChallenge _ _ _ h := h
  insert := by
    intro history pid E hknown _ t row hinserted hinsert
    cases t with
    | auditEvents =>
      refine .inr fun hsuccess => ?_
      obtain ⟨client,hasked,hlogs,htruth⟩ := hinsert hsuccess
      exact ⟨pid,client,hasked,hlogs.imp fun _ h => h.mono hknown,hinserted,htruth.mono hknown⟩
    | _ => trivial
  change := by
    intro history pid E _ _ t row row' hchange _
    cases t with
    | auditEvents => exact absurd rfl hchange
    | _ => trivial
  challenge _ _ _ _ _ := trivial

/-- However requests overlap, killed ones included, every committed success of
the audit trail was there at the start or is the truth about one request. -/
theorem audit_trail_true (h : authMachine.Reaches (StartsAsked d Asked) (idleSystem env db) sys)
    (event : AuditEvent) (hevent : event∈sys.shared.tables.committed .auditEvents)
    (hsuccess : event.outcome="success") :
    event∈db .auditEvents ∨ Evidenced d Asked sys.history event := by
  have hrows : ∀ t, ∀ row∈db t, Founded d Asked db [] t row := by
    intro t row hrow
    cases t with
    | auditEvents => exact .inl hrow
    | _ => trivial
  obtain ⟨states,hinv,_⟩ := tracked_reaches (reasons d Asked db)
    (fun _ hasked => keeps_named hasked) hrows (fun _ _ _ _ _ => trivial) h
  have hfounded : Founded d Asked db sys.history .auditEvents event := hinv.rows.committed hevent
  exact hfounded.imp_right fun hevidenced => hevidenced hsuccess

/-- A reset of the sample account, whose committed event has its evidence. -/
theorem audit_trail_true_recovery : ∃ (sys : AuthSystem) (event : AuditEvent),
    event∈sys.shared.tables.committed .auditEvents ∧
      event.eventType="auth.password_reset.completed" ∧
      Evidenced sampleDeployment AccountChanges.SampleAsked sys.history event := by
  have hlogged : (follow sampleDeployment (fun _ _ => true) sampleEnvironment
      (sampleDatabase [sampleUser] [] []) sampleRecovery).map
      (fun sys => ((sys.shared.tables.committed .auditEvents).find? fun event =>
        event.eventType=="auth.password_reset.completed").map (·.outcome))=
      some (some "success") := by
    decide +kernel
  obtain ⟨sys,hsys,hlogged⟩ := Option.map_eq_some_iff.mp hlogged
  obtain ⟨event,hfound,hsuccess⟩ := Option.map_eq_some_iff.mp hlogged
  have hcommitted := List.mem_of_find?_eq_some hfound
  have hevent := List.find?_some hfound
  refine ⟨sys,event,hcommitted,beq_iff_eq.mp hevent,?_⟩
  exact (audit_trail_true (reaches_of_lines (fun _ h => h) hsys) event hcommitted
    hsuccess).resolve_left (List.not_mem_nil)

end Runs

end BackendPlatform.AuditTrail
