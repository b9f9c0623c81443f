import BackendPlatform.AuditTrail
import BackendPlatform.CommittedJournals

/-!
# Answered successes are on record

A request logs its success in the transaction that it commits right before it
answers. However requests overlap, the event of every answered success is in
the committed audit trail, and it stays there.
-/

set_option autoImplicit false

namespace BackendPlatform.RecordedAnswers

open ProgramTrees InterleavedRuns TransactionalTables RowLocking CommittedJournals
open AuthRecords AuthEffects AuthRepositories AuthServices AuthFlows AuthFootprints
open ConcurrentRequests EvidencedRequests AuditTrail
open AuthService RefreshTokenService TwoFactorService PasswordResetService Endpoints

section Rules

/-- What a request has logged. -/
abbrev Trail := Journal AuditEvent

/-- The effect only appends to the audit trail. -/
def Appending : Effect → Prop
  | .sql stmt => Appends (D := authSchema) Table.auditEvents stmt
  | .external _ => True

/-- The trail after an answered effect. -/
def after (trail : Trail) : (op : Effect) → op.Reply → Trail
  | .sql stmt,r => Journal.after (D := authSchema) Table.auditEvents trail stmt r
  | .external _,_ => trail

/-- The protocol of a request: it only appends to the audit trail. -/
def protocol : Protocol authSignature Trail where
  Moves trail op r trail' := Appending op ∧ trail'=after trail op r
  Offers _ _ _ := True

variable {α β : Type} {trail : Trail}

/-- An action that only appends and ends in a result that satisfies the
postcondition. -/
abbrev Ends (trail : Trail) (p : Action α) (Q : Trail → α → Prop) : Prop :=
  p.Follows protocol trail fun trail' o => ∀ a, o=.ok a → Q trail' a

/-- A returned value ends the request where the trail stands. -/
theorem ends_pure {Q : Trail → α → Prop} {a : α} (h : Q trail a) :
    Ends trail (.pure a : Action α) Q := by
  rintro _ ⟨⟩
  exact h

/-- A failure returns nothing that has to be on record. -/
theorem ends_raise {Q : Trail → α → Prop} (e : Failure) : Ends trail (.raise e : Action α) Q := by
  rintro _ ⟨⟩

/-- The second part continues on the trail that the first one left. -/
theorem Ends.bind {p : Action α} {f : α → Action β} {Q : Trail → α → Prop} {R : Trail → β → Prop}
    (hp : Ends trail p Q) (hf : ∀ trail' a, Q trail' a → Ends trail' (f a) R) :
    Ends trail (p.bind f) R :=
  Program.Follows.bind hp (fun trail' a hq => hf trail' a (hq a rfl)) fun _ _ _ => by rintro _ ⟨⟩

/-- An effect that only appends to the trail leaves the rest of the request to
be shown. -/
theorem ends_call {op : Effect} {k : op.Reply → Action α} {Q : Trail → α → Prop}
    (hop : Appending op) (hk : ∀ trail' r, Ends trail' (k r) Q) :
    Ends trail (.call op k) Q := fun r _ => ⟨after trail op r,⟨hop,rfl⟩,hk _ r⟩

/-- A refusal answers nothing. -/
theorem Ends.elim {p : Action α} {Q : Trail → α → Prop} (h : Ends trail p fun _ _ => False) :
    Ends trail p Q :=
  h.mono fun _ _ hq a ha => (hq a ha).elim

/-- An access that locks no audit event. -/
def Quiet (a : Access) : Prop :=
  a≠.lock .auditEvents ∧ a≠.update .auditEvents ∧ a≠.delete .auditEvents

instance (a : Access) : Decidable (Quiet a) := inferInstanceAs (Decidable (_ ∧ _ ∧ _))

/-- An effect whose accesses all leave the audit log alone appends nothing. -/
theorem appending_of_quiet {op : Effect} (h : ∀ a∈accesses op, Quiet a) : Appending op := by
  cases op with
  | external op => trivial
  | sql stmt =>
    cases stmt with
    | selectForUpdate t q =>
      rintro rfl
      exact (h _ (List.mem_singleton_self _)).1 rfl
    | update t q f =>
      rintro rfl
      exact (h _ (List.mem_singleton_self _)).2.1 rfl
    | delete t q =>
      rintro rfl
      exact (h _ (List.mem_singleton_self _)).2.2 rfl
    | _ => trivial

/-- Actions that only make such accesses. -/
theorem ends_inside {p : Action α} {fp : List Access} (h : Inside p fp) (hfp : ∀ a∈fp, Quiet a) :
    Ends trail p fun _ _ => True := by
  induction p generalizing trail with
  | pure a => exact ends_pure trivial
  | raise e => exact ends_raise e
  | call op k ih =>
    exact ends_call (appending_of_quiet fun a ha => hfp a (h.1 a ha)) fun _ r => ih r (h.2 r)

/-- A success of this type was logged and committed. -/
def Recorded (d : Deployment) (client : ClientRequest) (eventType : String) (trail : Trail) :
    Prop :=
  ∃ userId payload, success d client eventType userId payload∈trail.recorded

/-- Logging and then committing puts the success on record. -/
theorem ends_logged {d : Deployment} {client : ClientRequest} {eventType : String}
    {userId : Option UUID} {payload : List (String×PyValue)} {next : Action α}
    {Q : Trail → α → Prop}
    (hnext : ∀ trail', Recorded d client eventType trail' → Ends trail' next Q) :
    Ends trail ((AuditService.logEvent d eventType "success" userId userId client.ipAddress
      client.userAgent payload).bind fun _ => commit.bind fun _ => next) Q := by
  intro o _
  refine ⟨_,⟨trivial,rfl⟩,?_⟩
  cases o with
  | inserted =>
    refine fun r _ => ⟨_,⟨trivial,rfl⟩,hnext _ ⟨userId,payload,?_⟩⟩
    exact List.mem_cons_self
  | duplicateKey => exact ends_raise _
  | invalidValue => exact ends_raise _

/-- The same at the end of an action. -/
theorem ends_log {d : Deployment} {client : ClientRequest} {eventType : String}
    {userId : Option UUID} {payload : List (String×PyValue)} :
    Ends trail ((AuditService.logEvent d eventType "success" userId userId client.ipAddress
      client.userAgent payload).bind fun _ => commit)
      fun trail' _ => Recorded d client eventType trail' := by
  intro o _
  refine ⟨_,⟨trivial,rfl⟩,?_⟩
  cases o with
  | inserted =>
    refine fun r _ => ⟨_,⟨trivial,rfl⟩,ends_pure ⟨userId,payload,?_⟩⟩
    exact List.mem_cons_self
  | duplicateKey => exact ends_raise _
  | invalidValue => exact ends_raise _

end Rules

section Requests

variable {d : Deployment} {client : ClientRequest} {trail : Trail} {α : Type}

/-- Loading a user records nothing. -/
theorem ends_load (q : User → Bool) : Ends trail (UserRepository.load q) fun _ _ => True :=
  ends_inside (inside_load q) (by decide)

/-- The lock check records nothing. -/
theorem ends_assertNotLocked (scope : Scope) (identifier : String) :
    Ends trail (BruteForceProtectionService.assertNotLocked d scope identifier) fun _ _ => True :=
  ends_inside (inside_assertNotLocked d scope identifier) (by decide)

/-- Counting a failure records nothing. -/
theorem ends_recordFailure (scope : Scope) (identifier : String) :
    Ends trail (BruteForceProtectionService.recordFailure d scope identifier) fun _ _ => True :=
  ends_inside (inside_recordFailure d scope identifier) (by decide)

/-- Clearing the counters records nothing. -/
theorem ends_clearFailures (scope : Scope) (identifier : String) :
    Ends trail (BruteForceProtectionService.clearFailures d scope identifier) fun _ _ => True :=
  ends_inside (inside_clearFailures d scope identifier) (by decide)

/-- Issuing the tokens records nothing itself: its caller logs the sign-in. -/
theorem ends_issueForUser (userId : UUID) (ip ua : Option String) :
    Ends trail (issueForUser d userId ip ua) fun _ _ => True :=
  ends_inside (inside_issueForUser d userId ip ua) (by decide)

/-- A refusal never returns a value. -/
theorem ends_refuse (userId : Option UUID) (ip ua : Option String)
    (payload : List (String×PyValue)) (failure : Failure) :
    Ends trail (refuse d userId ip ua payload failure : Action α) fun _ _ => False :=
  (ends_inside (inside_logEvent d _ _ _ _ _ _ _) (by decide)).bind fun _ _ _ =>
    (ends_inside inside_commit (by decide)).bind fun _ _ _ => ends_raise _

/-- A wrong password never returns a value. -/
theorem ends_rejectPassword (user : Option LoadedUser) (email identifier : String)
    (ip ua : Option String) :
    Ends trail (rejectPassword d user email identifier ip ua) fun _ _ => False := by
  refine (ends_recordFailure _ _).bind fun _ _ _ =>
    (ends_inside (inside_recordAccountFailure d _ _) (by decide)).bind fun _ blocked _ =>
    (ends_inside (inside_logEvent d _ _ _ _ _ _ _) (by decide)).bind fun _ _ _ =>
    (ends_inside inside_commit (by decide)).bind fun _ _ _ => ?_
  split
  · exact ends_raise _
  · exact ends_raise _

/-- An answered registration has its event committed. -/
theorem ends_register (email password : String) :
    Ends trail (register d email password client.ipAddress client.userAgent) fun trail' _ =>
      Recorded d client "auth.register.success" trail' := by
  refine (ends_load _).bind fun _ found _ => ?_
  cases found with
  | some user => exact ends_raise _
  | none =>
    exact (ends_inside (inside_hashPassword d password) (by decide)).bind fun _ _ _ =>
      (ends_inside (inside_createUser d _ _) (by decide)).bind fun _ _ _ => ends_log

/-- Tokens are returned only after the sign-in was committed to the log. -/
theorem ends_grantAccess (user : LoadedUser) (email identifier : String) :
    Ends trail (grantAccess d user email identifier client.ipAddress client.userAgent)
      fun trail' result => result.tokens.isSome=true →
        Recorded d client "auth.login.success" trail' := by
  refine (ends_clearFailures _ _).bind fun _ _ _ => (ends_clearFailures _ _).bind fun _ _ _ => ?_
  simp only [Program.monad_bind,Program.monad_pure]
  split
  · refine (ends_inside (inside_createLoginChallenge d _ _) (by decide)).bind fun _ _ _ =>
      ends_pure ?_
    rintro ⟨⟩
  · exact (ends_issueForUser _ _ _).bind fun _ _ _ =>
      ends_logged fun _ hrecorded => ends_pure fun _ => hrecorded

/-- A sign-in that returns tokens has its event committed. -/
theorem ends_login (email password : String) :
    Ends trail (login d email password client.ipAddress client.userAgent)
      fun trail' result => result.tokens.isSome=true →
        Recorded d client "auth.login.success" trail' := by
  refine (ends_load _).bind fun _ found _ => ?_
  cases found with
  | none => exact (ends_assertNotLocked _ _).bind fun _ _ _ => (ends_rejectPassword _ _ _ _ _).elim
  | some user =>
    simp only [Program.monad_throw,Program.monad_bind]
    split
    · exact ends_raise _
    · refine (ends_assertNotLocked _ _).bind fun _ _ _ =>
        (ends_assertNotLocked _ _).bind fun _ _ _ => ?_
      split
      · exact (ends_rejectPassword _ _ _ _ _).elim
      · split
        · exact (ends_refuse _ _ _ _ _).elim
        · exact ends_grantAccess _ _ _

/-- An accepted second factor has its event committed before the answer. -/
theorem ends_answerChallenge (user : LoadedUser) (challengeId identifier : String)
    (totp backup : Option String) :
    Ends trail (answerChallenge d user challengeId identifier totp backup client.ipAddress
      client.userAgent) fun trail' _ => Recorded d client "auth.login.success" trail' := by
  refine Ends.bind (Q := fun _ _ => True) ?_ fun _ factor _ => ?_
  · refine Program.Follows.handle (ends_inside (inside_verifyForLogin d user totp backup)
      (by decide)) (fun _ _ hq => hq) fun _ failure _ => ?_
    simp only [Program.monad_throw,Program.monad_bind]
    split
    · exact (ends_recordFailure _ _).bind fun _ _ _ => (ends_refuse _ _ _ _ _).elim
    · exact ends_raise _
  · exact (ends_clearFailures _ _).bind fun _ _ _ =>
      (ends_inside (inside_deleteLoginChallenge _) (by decide)).bind fun _ _ _ =>
      (ends_inside (inside_flushFactor factor) (by decide)).bind fun _ _ _ =>
      (ends_issueForUser _ _ _).bind fun _ _ _ => ends_logged fun _ hrecorded =>
      ends_pure hrecorded

/-- The second step of a sign-in answers only with its event committed. -/
theorem ends_verifyLoginChallenge (challengeId : String) (totp backup : Option String) :
    Ends trail (verifyLoginChallenge d challengeId totp backup client.ipAddress client.userAgent)
      fun trail' _ => Recorded d client "auth.login.success" trail' := by
  refine (ends_assertNotLocked _ _).bind fun _ _ _ =>
    (ends_inside (inside_getLoginChallenge challengeId) (by decide)).bind fun _ found _ => ?_
  cases found with
  | none => exact ends_raise _
  | some challenge =>
    simp only [Program.monad_throw,Program.monad_bind]
    split
    · exact (ends_recordFailure _ _).bind fun _ _ _ =>
        (ends_inside (inside_deleteLoginChallenge _) (by decide)).bind fun _ _ _ =>
        (ends_refuse _ _ _ _ _).elim
    · split
      · exact ends_raise _
      · refine (ends_load _).bind fun _ found _ => ?_
        cases found with
        | none => exact ends_raise _
        | some user =>
          dsimp only
          split
          · exact (ends_inside (inside_deleteLoginChallenge _) (by decide)).bind fun _ _ _ =>
              (ends_refuse _ _ _ _ _).elim
          · exact ends_answerChallenge _ _ _ _ _

/-- A failed renewal never returns a value. -/
theorem ends_refreshFailed (ip ua : Option String) (failure : Failure) :
    Ends trail (refreshFailed d ip ua failure) fun _ _ => False := by
  unfold refreshFailed
  split
  · exact (ends_inside (inside_markAccessSessionRevoked d _) (by decide)).bind fun _ _ _ =>
      (ends_inside (inside_logEvent d _ _ _ _ _ _ _) (by decide)).bind fun _ _ _ =>
      (ends_inside inside_commit (by decide)).bind fun _ _ _ => ends_raise _
  · exact (ends_inside (inside_logEvent d _ _ _ _ _ _ _) (by decide)).bind fun _ _ _ =>
      (ends_inside inside_commit (by decide)).bind fun _ _ _ => ends_raise _
  · exact ends_raise _

/-- Renewed tokens are returned only with the renewal committed to the log. -/
theorem ends_refreshTokens (token : RawToken) :
    Ends trail (refreshTokens d token client.ipAddress client.userAgent) fun trail' _ =>
      Recorded d client "auth.refresh.success" trail' := by
  refine Ends.bind (Q := fun _ _ => True) ?_ fun _ _ _ =>
    ends_logged fun _ hrecorded => ends_pure hrecorded
  exact Program.Follows.handle (ends_inside (inside_rotate d token _ _) (by decide))
    (fun _ _ hq => hq) fun _ failure _ => (ends_refreshFailed _ _ failure).elim

/-- A sign-out is answered only with its event committed. -/
theorem ends_revokeRefreshToken (token : RawToken) (revokeFamily : Bool) :
    Ends trail (revokeRefreshToken d token revokeFamily client.ipAddress client.userAgent)
      fun trail' _ => Recorded d client "auth.refresh.revoked" trail' := by
  refine (ends_inside (inside_revoke d token revokeFamily _) (by decide)).bind fun _ result _ => ?_
  cases result with
  | none => exact ends_log
  | some result =>
    exact (ends_inside (inside_markAccessSessionRevoked d _) (by decide)).bind fun _ _ _ =>
      (ends_inside (inside_flushRevocation _) (by decide)).bind fun _ _ _ => ends_log

/-- A message that was sent is on record. -/
theorem ends_requestReset (email : String) :
    Ends trail (requestReset d email client.ipAddress client.userAgent) fun trail' sent =>
      sent=true → Recorded d client "auth.password_reset.requested" trail' := by
  refine (ends_load _).bind fun _ found _ => ?_
  cases found with
  | none => exact ends_raise _
  | some user =>
    simp only [Program.monad_throw,Program.monad_bind,Program.monad_pure]
    split
    · exact ends_raise _
    · split
      · split
        · refine ends_pure ?_
          rintro ⟨⟩
        · exact ends_raise _
      · have hcode : ∀ trail', Ends trail' generateCode fun _ _ => True :=
          fun _ => ends_call trivial fun _ _ => ends_pure trivial
        have hmark : ∀ trail' now, Ends trail'
            (PasswordResetRepository.markActiveForUserUsed user.row.id now) fun _ _ => True :=
          fun _ _ => ends_call (show Table.passwordResetTokens≠Table.auditEvents by decide)
            fun _ _ => ends_pure trivial
        have hfail : ∀ {Q : Trail → Bool → Prop} trail' user,
            Ends trail' (failDelivery user) Q :=
          fun _ _ => ends_call trivial fun _ _ => ends_raise _
        refine (hcode _).bind fun _ _ _ => (ends_inside inside_utcNow (by decide)).bind
          fun _ _ _ => (hmark _ _).bind fun _ _ _ =>
          Ends.bind (Q := fun _ _ => True) (ends_call trivial fun _ _ =>
            ends_inside (inside_insertRow _ _) (by decide)) fun _ _ _ =>
          ends_call trivial fun _ delivery => ?_
        simp only [Program.pure_bind]
        split
        · exact ends_logged fun _ hrecorded => ends_pure fun _ => hrecorded
        · exact ends_call trivial fun _ _ => hfail _ _
        · exact hfail _ _
        · exact hfail _ _
        · exact ends_raise _

/-- Logging and committing a completed step puts its event on record. -/
theorem ends_completed (eventType : String) (user : LoadedUser) :
    Ends trail (completed d eventType user client.ipAddress client.userAgent) fun trail' _ =>
      Recorded d client eventType trail' := ends_log

/-- The endpoints of the second factor log what they did for the current user. -/
theorem ends_endpoint {authorization : Authorization} {eventType : String}
    {work : LoadedUser → Action α} (hwork : ∀ trail' user, Ends trail' (work user)
      fun _ _ => True) :
    Ends trail ((getCurrentUser d authorization).bind fun user => (work user).bind fun a =>
      (completed d eventType user client.ipAddress client.userAgent).bind fun _ => .pure a)
      fun trail' _ => Recorded d client eventType trail' :=
  (ends_inside (inside_getCurrentUser d authorization) (by decide)).bind fun _ user _ =>
    (hwork _ user).bind fun _ _ _ => (ends_completed eventType user).bind fun _ _ hrecorded =>
    ends_pure hrecorded

/-- The type under which a request logs that it answered. -/
def eventOf : Request → Response → Option String
  | .register _ _,_ => some "auth.register.success"
  | .login _ _,.login result => if result.tokens.isSome then some "auth.login.success" else none
  | .verifyLoginChallenge _ _ _,_ => some "auth.login.success"
  | .refreshTokens _,_ => some "auth.refresh.success"
  | .revokeRefreshToken _ _,_ => some "auth.refresh.revoked"
  | .requestReset _,.emailSent true => some "auth.password_reset.requested"
  | .resetPassword _ _ _,_ => some "auth.password_reset.completed"
  | .setupTwoFactor _,_ => some "auth.2fa.setup.initiated"
  | .enableTwoFactor _ _,_ => some "auth.2fa.enabled"
  | .disableTwoFactor _ _ _ _,_ => some "auth.2fa.disabled"
  | .regenerateBackupCodes _ _ _,_ => some "auth.2fa.backup.regenerated"
  | _,_ => none

/-- Every answer that is logged is on record. -/
def Answered (d : Deployment) (trail : Trail) (answer : Served) : Prop :=
  ∀ eventType, eventOf answer.client.request answer.response=some eventType →
    Recorded d answer.client eventType trail

/-- A reset is answered only with its event committed. -/
theorem ends_resetPassword (email code newPassword : String) :
    Ends trail (resetPassword d email code newPassword client.ipAddress client.userAgent)
      fun trail' _ => Recorded d client "auth.password_reset.completed" trail' := by
  have hrefuse : ∀ trail' identifier account user,
      Ends trail' (refuseCode d identifier account user) fun _ _ => False :=
    fun _ _ _ _ => (ends_inside (inside_recordResetFailure d _ _ _) (by decide)).bind
      fun _ _ _ => ends_raise _
  refine (ends_assertNotLocked _ _).bind fun _ _ _ => (ends_assertNotLocked _ _).bind
    fun _ _ _ => (ends_load _).bind fun _ found _ => ?_
  cases found with
  | none => exact (hrefuse _ _ _ _).elim
  | some user =>
    simp only [Program.monad_throw,Program.monad_bind]
    split
    · exact ends_raise _
    · refine (ends_inside (inside_getActiveForUserByHash _ _) (by decide)).bind
        fun _ found _ => ?_
      cases found with
      | none => exact (hrefuse _ _ _ _).elim
      | some record =>
        dsimp only
        split
        · exact (hrefuse _ _ _ _).elim
        · refine (ends_inside inside_utcNow (by decide)).bind fun _ now _ => ?_
          split
          · exact (hrefuse _ _ _ _).elim
          · exact (ends_inside (inside_hashPassword d newPassword) (by decide)).bind fun _ _ _ =>
              (ends_inside (inside_flushUpdate .users _ _) (by decide)).bind fun _ _ _ =>
              (ends_inside (inside_flushUpdate .passwordResetTokens _ _) (by decide)).bind
                fun _ _ _ =>
              (ends_inside (inside_listActiveSessionIdsForUser _) (by decide)).bind fun _ _ _ =>
              (ends_inside (inside_revokeTokensWhere _ _) (by decide)).bind fun _ _ _ =>
              (ends_inside (inside_revokeSessionsWhere _) (by decide)).bind fun _ _ _ =>
              (ends_inside (inside_markAccessSessionsRevoked d _) (by decide)).bind fun _ _ _ =>
              (ends_clearFailures _ _).bind fun _ _ _ => (ends_clearFailures _ _).bind
                fun _ _ _ => ends_log

/-- Switching the second factor off is answered only with its event committed.
-/
theorem ends_disableTwoFactor (authorization : Authorization) (password : String)
    (totp backup : Option String) :
    Ends trail (disableTwoFactor d authorization password totp backup client.ipAddress
      client.userAgent) fun trail' _ => Recorded d client "auth.2fa.disabled" trail' := by
  refine (ends_inside (inside_getCurrentUser d authorization) (by decide)).bind
    fun _ user _ => ?_
  simp only [Program.monad_throw,Program.monad_bind]
  split
  · exact ends_raise _
  · exact (ends_inside (inside_disable d user totp backup) (by decide)).bind fun _ _ _ =>
      ends_completed _ user

/-- Every request keeps to the protocol. -/
theorem ends_served : Ends trail (served d client) (Answered d) := by
  have hanswer : ∀ {β : Type} {p : Action β} {f : β → Response} {Q : Trail → β → Prop},
      Ends trail p Q → (∀ trail' b, Q trail' b → Answered d trail' ⟨client,f b⟩) →
      Ends trail ((p.bind fun b => .pure (f b)).bind fun r => .pure ⟨client,r⟩ : Action Served)
        (Answered d) := by
    intro β p f Q hp hf
    refine Ends.bind (Q := fun trail' r => Answered d trail' ⟨client,r⟩)
      (hp.bind fun trail' b hb => ends_pure (hf trail' b hb)) fun _ _ hanswered =>
      ends_pure hanswered
  have hlogged : ∀ {β : Type} {f : β → Response} {eventType : String},
      (∀ b, eventOf client.request (f b)=some eventType) → ∀ trail' b,
        Recorded d client eventType trail' → Answered d trail' ⟨client,f b⟩ := by
    intro β f eventType hevent trail' b hrecorded other hother
    obtain rfl := Option.some.inj ((hevent b).symm.trans hother)
    exact hrecorded
  obtain ⟨request,ip,ua⟩ := client
  cases request with
  | register email password =>
    exact hanswer (ends_register email password) (hlogged fun _ => rfl)
  | login email password =>
    refine hanswer (ends_login email password) fun trail' result hrecorded eventType hevent => ?_
    have hevent : (if result.tokens.isSome then some "auth.login.success" else none)=
        some eventType := hevent
    split at hevent
    · cases hevent
      exact hrecorded ‹_›
    · cases hevent
  | verifyLoginChallenge challengeId totp backup =>
    exact hanswer (ends_verifyLoginChallenge challengeId totp backup) (hlogged fun _ => rfl)
  | refreshTokens token => exact hanswer (ends_refreshTokens token) (hlogged fun _ => rfl)
  | revokeRefreshToken token revokeFamily =>
    exact hanswer (ends_revokeRefreshToken token revokeFamily) (hlogged fun _ => rfl)
  | requestReset email =>
    refine hanswer (ends_requestReset email) fun trail' sent hrecorded eventType hevent => ?_
    cases sent with
    | false => cases hevent
    | true =>
      cases hevent
      exact hrecorded rfl
  | resetPassword email code newPassword =>
    exact hanswer (ends_resetPassword email code newPassword) (hlogged fun _ => rfl)
  | currentSession authorization =>
    refine hanswer (ends_inside (inside_getCurrentUser d authorization) (by decide)) ?_
    rintro _ _ _ _ ⟨⟩
  | setupTwoFactor authorization =>
    exact hanswer (ends_endpoint fun _ user => ends_inside (inside_createSetup d user) (by decide))
      (hlogged fun _ => rfl)
  | enableTwoFactor authorization totpCode =>
    exact hanswer ((ends_inside (inside_getCurrentUser d authorization) (by decide)).bind
      fun _ user _ => (ends_inside (inside_enable d user totpCode) (by decide)).bind
      fun _ _ _ => ends_completed _ user) (hlogged fun _ => rfl)
  | disableTwoFactor authorization password totp backup =>
    exact hanswer (ends_disableTwoFactor authorization password totp backup)
      (hlogged fun _ => rfl)
  | regenerateBackupCodes authorization totp backup =>
    exact hanswer (ends_endpoint fun _ user => ends_inside
      (inside_regenerateBackupCodes d user totp backup) (by decide)) (hlogged fun _ => rfl)

end Requests

section Runs

variable {d : Deployment} {env : Environment} {db : Database authSchema} {sys : AuthSystem}

/-- The invariant of runs: the trails are in the tables and in the history. -/
structure Trailed (s : Shared) (history : List (Event authSignature)) (trails : ℕ → Trail) :
    Prop where
  /-- The tables hold what the trails say. -/
  backed : Backed (s.tables.cells .auditEvents) trails
  /-- What is in a trail was logged by its process. -/
  logged : ∀ pid, ∀ event∈(trails pid).pending++(trails pid).recorded, Logged history pid event

/-- An inserted audit row is appended to the trail of its process. -/
theorem after_insert (trail : Trail) (event : AuditEvent) :
    after trail (.sql (.insert .auditEvents event)) Insertion.inserted=trail.append event :=
  Journal.after_insert (D := authSchema) (t := Table.auditEvents) trail event

/-- An insert into another table leaves the trail as it is. -/
theorem after_insert_of_ne (trail : Trail) {t : Table} (row : Row t) (ht : t≠.auditEvents) :
    after trail (.sql (.insert t row)) Insertion.inserted=trail :=
  Journal.after_insert_of_ne (D := authSchema) (t := Table.auditEvents) trail row ht

/-- What is in the trail after an effect was there before or is what the effect logged. -/
theorem mem_after {trail : Trail} {pid : ℕ} {op : Effect} {r : op.Reply} {event : AuditEvent}
    (h : event∈(after trail op r).pending++(after trail op r).recorded) :
    event∈trail.pending++trail.recorded ∨
      (⟨pid,op,r⟩ : Event authSignature)=
        ⟨pid,.sql (.insert .auditEvents event),Insertion.inserted⟩ := by
  cases op with
  | external op => exact .inl h
  | sql stmt =>
    cases stmt with
    | insert t row =>
      cases r with
      | inserted =>
        by_cases ht : t=.auditEvents
        · subst ht
          rw [after_insert] at h
          rcases List.mem_cons.mp h with rfl|hold
          · exact .inr rfl
          · exact .inl hold
        · rw [after_insert_of_ne trail row ht] at h
          exact .inl h
      | _ => exact .inl h
    | commit => exact .inl h
    | rollback => exact .inl (List.mem_append_right _ h)
    | _ => exact .inl h

/-- Nothing on record is taken back. -/
theorem recorded_after {trail : Trail} {op : Effect} {r : op.Reply} {event : AuditEvent}
    (h : event∈trail.recorded) : event∈(after trail op r).recorded := by
  cases op with
  | external op => exact h
  | sql stmt =>
    cases stmt with
    | insert t row =>
      cases r with
      | inserted =>
        by_cases ht : t=.auditEvents
        · subst ht
          rw [after_insert]
          exact h
        · rw [after_insert_of_ne trail row ht]
          exact h
      | _ => exact h
    | commit => exact List.mem_append_right _ h
    | _ => exact h

/-- A process that records more loses nothing of what any process recorded. -/
theorem recorded_update {trails : ℕ → Trail} {pid : ℕ} {trail : Trail}
    (h : ∀ event∈(trails pid).recorded, event∈trail.recorded) (p : ℕ) :
    ∀ event∈(trails p).recorded, event∈(Function.update trails pid trail p).recorded := by
  intro event hevent
  by_cases hp : p=pid
  · subst hp
    rw [Function.update_self]
    exact h event hevent
  · rw [Function.update_of_ne hp]
    exact hevent

/-- One answered effect keeps the trails in step with the database. -/
theorem Trailed.answer {s s' : Shared} {history : List (Event authSignature)}
    {trails : ℕ → Trail} {pid choice : ℕ} {op : Effect} {r : op.Reply}
    (h : Trailed s history trails) (happends : Appending op)
    (hf : authMachine.fire pid op choice s=some (some r,s')) :
    Trailed s' (⟨pid,op,r⟩::history)
      (Function.update trails pid (after (trails pid) op r)) := by
  refine ⟨?_,fun p event hevent => ?_⟩
  · cases op with
    | external op =>
      rw [(fire_external hf).2]
      show Backed _ (Function.update trails pid (trails pid))
      rw [Function.update_eq_self]
      exact h.backed
    | sql stmt => exact h.backed.fire happends (fire_sql hf).1
  · by_cases hp : p=pid
    · subst hp
      rw [Function.update_self] at hevent
      rcases mem_after hevent with hold|hnew
      · exact List.mem_cons_of_mem _ (h.logged p event hold)
      · rw [hnew]
        exact List.mem_cons_self
    · rw [Function.update_of_ne hp] at hevent
      exact List.mem_cons_of_mem _ (h.logged p event hevent)

/-- Ending a request keeps the invariant. -/
theorem Trailed.close {s : Shared} {history : List (Event authSignature)} {trails : ℕ → Trail}
    (h : Trailed s history trails) (pid : ℕ) : Trailed (authMachine.close pid s) history
      (Function.update trails pid (trails pid).release) := by
  refine ⟨h.backed.release pid,fun p event hevent => ?_⟩
  by_cases hp : p=pid
  · subst hp
    rw [Function.update_self] at hevent
    exact h.logged p event (List.mem_append_right _ hevent)
  · rw [Function.update_of_ne hp] at hevent
    exact h.logged p event hevent

/-- The tables hold no trail at the start. -/
theorem trailed_idle (env : Environment) (db : Database authSchema) :
    Trailed (idleSystem env db).shared (idleSystem env db).history fun _ => Journal.empty := by
  refine ⟨⟨?_,?_,fun c hc _ => ?_⟩,?_⟩
  · rintro p event ⟨⟩
  · rintro p event ⟨⟩
  · obtain ⟨row,_,rfl⟩ := List.mem_map.mp hc
    rfl
  · rintro p event ⟨⟩

/-- The obligations of runs. -/
theorem duties (d : Deployment) :
    Duties authMachine protocol Journal.empty (fun trail o => ∀ a, o=.ok a → Answered d trail a)
      Trailed (Starts d) Journal.release where
  spawn sys p hc := by
    obtain ⟨client,rfl⟩ := hc
    exact ends_served
  outcome _ _ h := h
  progress sys trails i op k c s ht _ _ hf := by
    have hinv : Trailed sys.shared sys.history trails := ht.inv
    exact {hinv with backed := by rw [(fire_progress hf).1]; exact hinv.backed}
  offer _ _ _ _ _ _ _ _ _ _ _ _ := trivial
  answer sys trails i op k c r s t ht _ _ hm hf := by
    obtain ⟨happends,rfl⟩ := hm
    exact Trailed.answer ht.inv happends hf
  close sys trails i ht _ := by
    have hinv : Trailed sys.shared sys.history trails := ht.inv
    exact hinv.close i

/-- However requests overlap, killed ones included, every answer that its
request logs is on record: the event that this request logged is committed. -/
theorem answers_on_record (h : Reached d env db sys) (pid : ℕ) (answer : Served)
    (ho : sys.outcome pid=some (.ok answer)) (eventType : String)
    (hevent : eventOf answer.client.request answer.response=some eventType) :
    ∃ userId payload, Logged sys.history pid
        (success d answer.client eventType userId payload) ∧
      success d answer.client eventType userId payload∈
        sys.shared.tables.committed .auditEvents := by
  have hstart : Tracks protocol Journal.empty
      (fun trail o => ∀ a, o=.ok a → Answered d trail a) Trailed (idleSystem env db)
      fun _ => Journal.empty := by
    refine ⟨trailed_idle env db,?_,fun _ _ => rfl⟩
    intro i p hp
    cases hp
  obtain ⟨trails,ht⟩ := (duties d).reaches hstart h
  obtain ⟨userId,payload,hrecorded⟩ := ht.outcome ho answer rfl eventType hevent
  have hinv : Trailed sys.shared sys.history trails := ht.inv
  refine ⟨userId,payload,hinv.logged pid _ (List.mem_append_right _ hrecorded),?_⟩
  obtain ⟨c,hc,hcommitted⟩ := hinv.backed.recorded pid _ hrecorded
  exact List.mem_filterMap.mpr ⟨c,hc,hcommitted⟩

/-- The type under which a request has logged that it answered. -/
def answeredType (sys : AuthSystem) (pid : ℕ) : Option String :=
  match sys.outcome pid with
  | some (.ok answer) => eventOf answer.client.request answer.response
  | _ => none

/-- A process with an answer that owes an event did return that answer. -/
theorem answeredType_eq_some {pid : ℕ} {eventType : String}
    (h : answeredType sys pid=some eventType) : ∃ answer, sys.outcome pid=some (.ok answer) ∧
      eventOf answer.client.request answer.response=some eventType := by
  unfold answeredType at h
  split at h
  · exact ⟨_,‹_›,h⟩
  · cases h

/-- The reset of the sample account is answered and its event is in the log. -/
theorem answers_on_record_reset : ∃ (sys : AuthSystem) (client : ClientRequest)
    (userId : Option UUID) (payload : List (String×PyValue)),
    success sampleDeployment client "auth.password_reset.completed" userId payload∈
      sys.shared.tables.committed .auditEvents := by
  have hanswered : (follow sampleDeployment (fun _ _ => true) sampleEnvironment
      (sampleDatabase [sampleUser] [] []) AccountChanges.sampleRecovery).map
      (fun sys => answeredType sys 1)=some (some "auth.password_reset.completed") := by
    decide +kernel
  obtain ⟨sys,hsys,htype⟩ := Option.map_eq_some_iff.mp hanswered
  obtain ⟨answer,houtcome,hevent⟩ := answeredType_eq_some htype
  obtain ⟨userId,payload,_,hcommitted⟩ := answers_on_record (reached_of_follow hsys) 1 answer
    houtcome _ hevent
  exact ⟨sys,answer.client,userId,payload,hcommitted⟩

end Runs

end BackendPlatform.RecordedAnswers
