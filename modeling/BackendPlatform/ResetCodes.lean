import BackendPlatform.AccountRecovery
import BackendPlatform.ConcurrentRequests

/-!
# Reset codes under concurrency

A reset locks the code it was given, reads the clock, changes the password,
uses the code and commits. Used codes are never unused again, so a code leads
to at most one committed change, whatever is interleaved.
-/

set_option autoImplicit false

namespace BackendPlatform.ResetCodes

open ProgramTrees InterleavedRuns TransactionalTables RowLocking
open AuthRecords AuthEffects AuthRepositories AuthServices AuthFlows AuthFootprints
open ConcurrentRequests AccountRecovery PasswordResetService

section Protocol

/-- How far a request has come with a reset code. -/
inductive Phase where
  /-- It has touched no code in its transaction. -/
  | idle
  /-- It has retired or inserted codes. -/
  | writing
  /-- It has locked the code it was given. -/
  | found (record : PasswordResetToken)
  /-- It has read the clock and accepted the code. -/
  | checked (record : PasswordResetToken)
  /-- It has changed the password of the owner. -/
  | rewritten (record : PasswordResetToken)
  /-- It has used the code. -/
  | used (record : PasswordResetToken)
  /-- It has committed the change. -/
  | changed
  /-- It has refused or has ended. -/
  | closed

/-- The effect can change the password hash of a user. -/
def Rewrites (userId : UUID) : Effect → Prop
  | .sql (.update .users q f) =>
    ∃ r : User, r.id=userId ∧ q r=true ∧ (f r).passwordHash≠r.passwordHash
  | _ => False

/-- The accesses to reset codes. -/
def codeAccesses : List Access :=
  [.lock .passwordResetTokens,.insert .passwordResetTokens,.update .passwordResetTokens,
    .delete .passwordResetTokens]

/-- The effect touches no code and changes no password. -/
def Ordinary (op : Effect) : Prop :=
  (∀ a∈codeAccesses,a∉accesses op) ∧ ∀ userId, ¬Rewrites userId op

/-- The effect also leaves the transaction open. -/
def Quiet (op : Effect) : Prop :=
  Ordinary op ∧ .commit∉accesses op ∧ .rollback∉accesses op

/-- What a request may do with reset codes and passwords. -/
def moves (s : Phase) : (op : Effect) → op.Reply → Phase → Prop
  | .sql (.selectForUpdate .passwordResetTokens q),rows,s' => s=.idle ∧
    (∀ r, q r=true → r.usedAt=none) ∧ ((rows=[] ∧ s'=.idle) ∨ (∃ record, rows=[record] ∧ s'=.found record) ∨
      (2≤rows.length ∧ s'=.closed))
  | .sql (.insert .passwordResetTokens row),_,s' =>
    row.usedAt=none ∧ (s=.idle ∨ s=.writing) ∧ s'=.writing
  | .sql (.update .passwordResetTokens q f),n,s' =>
    (∀ r, (f r).id=r.id ∧ (f r).userId=r.userId ∧ (f r).usedAt≠none) ∧
      (((s=.idle ∨ s=.writing) ∧ s'=.writing) ∨
        ∃ record, s=.rewritten record ∧ (∀ r, q r=true → r.id=record.id) ∧
          ((n=1 ∧ s'=.used record) ∨ s'=.closed))
  | .sql (.delete .passwordResetTokens _),_,_ => False
  | .sql .commit,_,s' => ((s=.idle ∨ s=.writing) ∧ s'=.idle) ∨
    (∃ record, (s=.found record ∨ s=.checked record) ∧ s'=.closed) ∨
      ∃ record, s=.used record ∧ s'=.changed
  | .sql .rollback,_,s' => (s=.idle ∨ s=.writing) ∧ s'=.idle
  | .external .now,t,s' => s'=s ∨
    ∃ record, s=.found record ∧ t≤record.expiresAt ∧ s'=.checked record
  | op,_,s' => (Quiet op ∧ s'=s) ∨
    ∃ record, s=.checked record ∧ (∀ userId, Rewrites userId op → userId=record.userId) ∧
      (∃ q f, op=.sql (.update .users q f)) ∧ s'=.rewritten record

/-- The codes a lookup returns satisfy its condition. -/
def offers : (op : Effect) → op.Reply → Prop
  | .sql (.selectForUpdate .passwordResetTokens q),rows => ∀ r∈rows, q r=true
  | _,_ => True

/-- The protocol of reset codes. -/
def protocol : Protocol authSignature Phase := ⟨moves,fun _ => offers⟩

/-- Quiet effects leave the phase alone. -/
theorem moves_quiet (s : Phase) {op : Effect} (r : op.Reply) (h : Quiet op) : moves s op r s := by
  have hquiet := h
  obtain ⟨⟨hcodes,_⟩,hcommit,hrollback⟩ := h
  unfold moves
  split
  · exact absurd (by simp [accesses]) (hcodes (.lock .passwordResetTokens) (by simp [codeAccesses]))
  · exact absurd (by simp [accesses])
      (hcodes (.insert .passwordResetTokens) (by simp [codeAccesses]))
  · exact absurd (by simp [accesses])
      (hcodes (.update .passwordResetTokens) (by simp [codeAccesses]))
  · exact absurd (by simp [accesses])
      (hcodes (.delete .passwordResetTokens) (by simp [codeAccesses]))
  · exact absurd (by simp [accesses]) hcommit
  · exact absurd (by simp [accesses]) hrollback
  · exact .inl rfl
  · exact .inl ⟨hquiet,rfl⟩

/-- Ordinary effects leave an idle request idle. -/
theorem moves_ordinary {op : Effect} (r : op.Reply) (h : Ordinary op) :
    moves .idle op r .idle := by
  by_cases hquiet : Quiet op
  · exact moves_quiet .idle r hquiet
  · cases op with
    | external op =>
      refine absurd ⟨h,?_,?_⟩ hquiet <;> cases op <;> simp [accesses]
    | sql stmt =>
      cases stmt with
      | commit => exact .inl ⟨.inl rfl,rfl⟩
      | rollback => exact ⟨.inl rfl,rfl⟩
      | _ => exact absurd ⟨h,by simp [accesses],by simp [accesses]⟩ hquiet

variable {α β : Type} {fp : List Access}

/-- A footprint without the reset codes and the accounts is ordinary. -/
theorem ordinary_inside {p : Action α} (hp : Inside p fp) (hcodes : ∀ a∈codeAccesses,a∉fp)
    (husers : .update .users∉fp) : p.Within Ordinary := by
  refine Program.within_mono (fun op hop => ⟨fun a ha hmem => hcodes a ha (hop a hmem),?_⟩) hp
  intro userId hrewrites
  unfold Rewrites at hrewrites
  split at hrewrites
  · exact husers (hop _ (by simp [accesses]))
  · exact hrewrites

/-- Without the end of a transaction it is even quiet. -/
theorem quiet_inside {p : Action α} (hp : Inside p fp) (hcodes : ∀ a∈codeAccesses,a∉fp)
    (husers : .update .users∉fp) (hcommit : .commit∉fp) (hrollback : .rollback∉fp) :
    p.Within Quiet := by
  have hordinary := ordinary_inside hp hcodes husers
  refine Program.within_mono (fun op hop => ⟨hop.1,?_,?_⟩) (Program.within_and hordinary hp)
  · exact fun hmem => hcommit (hop.2 _ hmem)
  · exact fun hmem => hrollback (hop.2 _ hmem)

/-- A quiet part leaves the phase of its request as it is. -/
theorem bind_quiet {p : Action α} {f : α → Action β} {s : Phase}
    {R : Phase → Except Failure β → Prop} (hp : p.Within Quiet)
    (hok : ∀ a, (f a).Follows protocol s R) (herror : ∀ e, R s (.error e)) :
    (p.bind f).Follows protocol s R :=
  Program.Follows.bind_of_within hp (fun _ r hop => moves_quiet s r hop) hok herror

end Protocol

section Requests

open AuthService BruteForceProtectionService

/-- The effect changes no password. -/
def Keeps (op : Effect) : Prop := ∀ userId, ¬Rewrites userId op

variable {α : Type} {p : Action α} {fp : List Access}

/-- A request that never updates an account keeps every password. -/
theorem keeps_inside (hp : Inside p fp) (husers : .update .users∉fp) : p.Within Keeps := by
  refine Program.within_mono (fun op hop userId hrewrites => ?_) hp
  unfold Rewrites at hrewrites
  split at hrewrites
  · exact husers (hop _ (by simp [accesses]))
  · exact hrewrites

/-- An UPDATE that leaves the hash alone keeps every password. -/
theorem keeps_flush (q : User → Bool) (f : User → User)
    (hf : ∀ r, (f r).passwordHash=r.passwordHash) : (flushUpdate .users q f).Within Keeps := by
  have hop : Keeps (.sql (.update .users q f)) := fun _ ⟨r,_,_,hne⟩ => hne (hf r)
  refine ⟨hop,fun n => ?_⟩
  show Program.Within _ (if n=1 then _ else _)
  split <;> trivial

/-- A request that keeps the passwords and avoids the codes is ordinary. -/
theorem ordinary_of_keeps (hp : Inside p fp) (hcodes : ∀ a∈codeAccesses,a∉fp)
    (hk : p.Within Keeps) : p.Within Ordinary := by
  have hboth := Program.within_and hp hk
  exact Program.within_mono
    (fun op hop => ⟨fun a ha hmem => hcodes a ha (hop.1 a hmem),hop.2⟩) hboth

/-- What spares the password of every account changes no password. -/
theorem keeps_of_spared (hp : ∀ id, p.Within (Spared id)) : p.Within Keeps := by
  refine Program.within_mono (fun op hop userId hrewrites => ?_) (Program.within_forall hp)
  unfold Rewrites at hrewrites
  split at hrewrites
  · obtain ⟨r,hid,hq,hne⟩ := hrewrites
    have hkept := hop userId r hid hq
    exact hne hkept.2.2.1
  · exact hrewrites

/-- A wrong password may block the login and changes no password. -/
theorem keeps_rejectPassword (d : Deployment) (user : Option LoadedUser) (email identifier : String)
    (ip ua : Option String) : (rejectPassword d user email identifier ip ua).Within Keeps := by
  refine Program.within_bind (keeps_inside (inside_recordFailure _ _ _) (by decide)) fun _ => ?_
  refine Program.within_bind ?_ fun blocked => ?_
  · cases user with
    | none => trivial
    | some user =>
      refine Program.within_bind (keeps_inside (inside_recordFailure _ _ _) (by decide))
        fun attempts => ?_
      simp only [Program.within_ite]
      exact ⟨fun _ => Program.within_bind (keeps_flush _ _ fun _ => rfl) fun _ => trivial,
        fun _ => trivial⟩
  · refine Program.within_bind (keeps_inside (inside_logEvent _ _ _ _ _ _ _ _) (by decide))
      fun _ => ?_
    refine Program.within_bind (keeps_inside inside_commit (by decide)) fun _ => ?_
    cases blocked <;> trivial

/-- A login changes no password. -/
theorem keeps_login (d : Deployment) (email password : String) (ip ua : Option String) :
    (login d email password ip ua).Within Keeps := by
  have hlocked : ∀ scope identifier, (assertNotLocked d scope identifier).Within Keeps :=
    fun _ _ => keeps_inside (inside_assertNotLocked _ _ _) (by decide)
  refine Program.within_bind (keeps_inside (inside_load _) (by decide)) fun found => ?_
  cases found with
  | none =>
    exact Program.within_bind (hlocked _ _) fun _ => keeps_rejectPassword d none _ _ ip ua
  | some user =>
    simp only [Program.monad_throw,Program.monad_bind,Program.raise_bind,Program.within_ite,
      Program.within_raise,implies_true,true_and]
    intro _
    refine Program.within_bind (hlocked _ _) fun _ => Program.within_bind (hlocked _ _) fun _ => ?_
    simp only [Program.within_ite]
    have hrefuse : ∀ payload, (refuse d (some user.row.id) ip ua payload .invalidCredentials :
        Action LoginStepResult).Within Keeps :=
      fun payload => keeps_inside (inside_refuse d _ ip ua payload _) (by decide)
    exact ⟨fun _ => keeps_rejectPassword d _ _ _ ip ua,fun _ => ⟨fun _ => hrefuse _,fun _ =>
      keeps_of_spared fun _ => spared_grantAccess user _ _⟩⟩

/-- Requests other than resets are ordinary. -/
theorem ordinary_respond (d : Deployment) (client : ClientRequest)
    (hrequest : ∀ email, client.request≠.requestReset email)
    (hreset : ∀ email code password, client.request≠.resetPassword email code password) :
    (respond d client).Within Ordinary := by
  have hcodes : ∀ a∈codeAccesses,a∉footprint client.request := by
    obtain ⟨request,ip,ua⟩ := client
    have hfp : ∀ fp, footprint request=fp → (∀ a∈codeAccesses,a∉fp) →
        ∀ a∈codeAccesses,a∉footprint request := fun fp he h => he ▸ h
    cases request with
    | requestReset email => exact absurd rfl (hrequest email)
    | resetPassword email code password => exact absurd rfl (hreset email code password)
    | register => exact hfp registration rfl (by decide)
    | login => exact hfp signIn rfl (by decide)
    | verifyLoginChallenge => exact hfp secondStep rfl (by decide)
    | refreshTokens => exact hfp refresh rfl (by decide)
    | revokeRefreshToken => exact hfp refresh rfl (by decide)
    | currentSession => exact hfp authentication rfl (by decide)
    | setupTwoFactor => exact hfp factorEndpoint rfl (by decide)
    | enableTwoFactor => exact hfp factorEndpoint rfl (by decide)
    | disableTwoFactor => exact hfp factorEndpoint rfl (by decide)
    | regenerateBackupCodes => exact hfp factorEndpoint rfl (by decide)
  refine ordinary_of_keeps (inside_respond d client) hcodes ?_
  by_cases hlogin : ∀ email password, client.request≠.login email password
  · exact keeps_of_spared fun id => spared_respond d client hlogin hreset
  · obtain ⟨request,ip,ua⟩ := client
    simp only [ne_eq,not_forall,not_not] at hlogin
    obtain ⟨email,password,rfl⟩ := hlogin
    exact Program.within_bind (keeps_login d email password ip ua) fun _ => trivial

end Requests

section Resets

open BruteForceProtectionService AuditService

variable {α : Type} (d : Deployment) (ip ua : Option String)

/-- Nothing is asked of the end of a request. -/
def Anything {α : Type} (_ : Phase) (_ : Except Failure α) : Prop := True

/-- Loading a user is quiet. -/
theorem quiet_load (q : User → Bool) : (UserRepository.load q).Within Quiet :=
  quiet_inside (inside_load q) (by decide) (by decide) (by decide) (by decide)

/-- Logging is quiet: it inserts an audit row only. -/
theorem quiet_logEvent (eventType outcome : String) (userId : Option UUID)
    (payload : List (String×PyValue)) :
    (logEvent d eventType outcome userId userId ip ua payload).Within Quiet :=
  quiet_inside (inside_logEvent d eventType outcome userId userId ip ua payload) (by decide)
    (by decide) (by decide) (by decide)

/-- What happens outside the database is quiet. -/
theorem quiet_external (op : External) : (external op).Within Quiet := by
  have hop : Quiet (.external op) := by
    refine ⟨⟨?_,fun _ => id⟩,?_,?_⟩
    · intro a ha
      cases op <;> revert a <;> simp [codeAccesses,accesses]
    · cases op <;> simp [accesses]
    · cases op <;> simp [accesses]
  exact ⟨hop,fun _ => trivial⟩

/-- A failed request rolls back. -/
theorem follows_failDelivery {s : Phase} (user : Instance LoadedUser)
    (hs : s=.idle ∨ s=.writing) : (failDelivery user).Follows protocol s Anything :=
  fun _ _ => ⟨.idle,⟨hs,rfl⟩,trivial⟩

/-- Retiring the codes that are left starts the writing. -/
theorem follows_markActiveForUserUsed (userId : UUID) (now : Instant) :
    (PasswordResetRepository.markActiveForUserUsed userId now).Follows protocol .idle
      fun s _ => s=.writing := by
  intro n _
  refine ⟨.writing,⟨fun r => ⟨rfl,rfl,nofun⟩,.inl ⟨.inl rfl,rfl⟩⟩,?_⟩
  rfl

/-- The new code is inserted while writing. -/
theorem follows_create (userId : UUID) (tokenHash : Hmac String) (expiresAt : Instant)
    (requestedIp requestedUserAgent : String) :
    (PasswordResetRepository.create userId tokenHash expiresAt requestedIp
      requestedUserAgent).Follows protocol .writing fun s _ => s=.writing := by
  have hdraw : (external .draw).Within Quiet := quiet_external .draw
  have hmove : ∀ n : ℕ, moves .writing (.external .draw) n .writing := by
    intro n
    have hquiet : Quiet (.external .draw) := hdraw.1
    exact moves_quiet .writing _ hquiet
  intro n _
  refine ⟨.writing,hmove n,?_⟩
  intro insertion _
  refine ⟨.writing,⟨rfl,.inr rfl,rfl⟩,?_⟩
  cases insertion <;> rfl

/-- A requested reset follows the protocol, whatever it ends with. -/
theorem follows_requestReset (email : String) :
    (requestReset d email ip ua).Follows protocol .idle Anything := by
  refine bind_quiet (quiet_load _) (fun found => ?_) fun _ => trivial
  cases found with
  | none => trivial
  | some user =>
    simp only [Program.monad_throw,Program.monad_bind,Program.monad_pure]
    split
    · trivial
    · split
      · split <;> trivial
      · refine bind_quiet (quiet_external (.randbelow 1000000)) (fun code => ?_)
          fun _ => trivial
        refine bind_quiet (quiet_external .now) (fun now => ?_) fun _ => trivial
        -- The retired codes and the new one belong to the open transaction.
        refine (follows_markActiveForUserUsed _ _).bind (fun s _ hs => ?_) fun _ _ _ => trivial
        obtain rfl : s=.writing := hs
        refine (follows_create _ _ _ _ _).bind (fun s _ hs => ?_) fun _ _ _ => trivial
        obtain rfl : s=.writing := hs
        refine bind_quiet (quiet_external (.sendEmail _ _ _)) (fun delivery => ?_)
          fun _ => trivial
        have hfail : (failDelivery (.loaded user)).Follows protocol .writing Anything :=
          follows_failDelivery _ (.inr rfl)
        split
        · refine bind_quiet (quiet_logEvent d ip ua _ _ _ _) (fun _ => ?_) fun _ => trivial
          exact fun _ _ => ⟨.idle,.inl ⟨.inr rfl,rfl⟩,trivial⟩
        · exact fun _ _ => ⟨.idle,⟨.inr rfl,rfl⟩,follows_failDelivery _ (.inl rfl)⟩
        · exact hfail
        · exact hfail
        · trivial

/-- Counting a failure is quiet. -/
theorem quiet_recordFailure (scope : Scope) (identifier : String) :
    (recordFailure d scope identifier).Within Quiet :=
  quiet_inside (inside_recordFailure d scope identifier) (by decide) (by decide) (by decide)
    (by decide)

/-- A refused code may be committed as a failure, never as a change. -/
theorem follows_refuseCode {s : Phase} (identifier account : String) (user : Option LoadedUser)
    (hcommit : ∃ s', moves s (.sql .commit) () s') :
    (refuseCode d identifier account user).Follows protocol s Anything := by
  obtain ⟨s',hcommit⟩ := hcommit
  have hrecord : (recordResetFailure d identifier account user).Follows protocol s
      fun _ _ => True := by
    refine bind_quiet (quiet_recordFailure d _ _) (fun _ => ?_) fun _ => trivial
    refine bind_quiet (quiet_recordFailure d _ _) (fun attempts => ?_) fun _ => trivial
    cases user with
    | none => trivial
    | some user =>
      simp only [Program.monad_bind]
      split
      · have hflush : (UserRepository.flushPasswordResetBlocked user).Within Quiet := by
          have hordinary := ordinary_of_keeps (inside_flushUpdate .users
            (fun u => u.id==user.row.id) fun u => {u with passwordResetBlocked := true})
            (by decide) (keeps_flush _ _ fun _ => rfl)
          refine Program.within_mono (fun op hop => ⟨hop.1,?_,?_⟩)
            (Program.within_and hordinary (inside_flushUpdate .users _ _))
          · exact fun hmem => absurd (hop.2 _ hmem) (by simp)
          · exact fun hmem => absurd (hop.2 _ hmem) (by simp)
        refine bind_quiet hflush (fun _ => ?_) fun _ => trivial
        exact fun _ _ => ⟨s',hcommit,trivial⟩
      · trivial
  exact hrecord.bind (fun _ _ _ => trivial) fun _ _ _ => trivial

/-- The update of the password changes it for the owner of the code alone. -/
theorem follows_flushUpdatePassword (user : LoadedUser) (record : PasswordResetToken)
    (hash : PasswordHash) (huser : record.userId=user.row.id) :
    (UserRepository.flushUpdatePassword user hash).Follows protocol (.checked record)
      fun s _ => s=.rewritten record := by
  intro n _
  refine ⟨.rewritten record,.inr ⟨record,rfl,?_,⟨_,_,rfl⟩,rfl⟩,?_⟩
  · rintro userId ⟨r,hid,hq,_⟩
    have hrow : r.id=user.row.id := beq_iff_eq.mp hq
    exact hid.symm.trans (hrow.trans huser.symm)
  · show Program.Follows _ (if n=1 then _ else _) _ _
    split <;> rfl

/-- The code is used when exactly its row was updated. -/
theorem follows_flushUsed (record : PasswordResetToken) (now : Instant) :
    (PasswordResetRepository.flushUsed record now).Follows protocol (.rewritten record)
      fun s o => o=.ok () → s=.used record := by
  intro n _
  have hcode : ∀ r : PasswordResetToken, (r.id==record.id)=true → r.id=record.id :=
    fun r hr => beq_iff_eq.mp hr
  by_cases hn : n=1
  · refine ⟨.used record,⟨fun r => ⟨rfl,rfl,nofun⟩,.inr ⟨record,rfl,hcode,.inl ⟨hn,rfl⟩⟩⟩,?_⟩
    show Program.Follows _ (if n=1 then _ else _) _ _
    rw [if_pos hn]
    exact fun _ => rfl
  · refine ⟨.closed,⟨fun r => ⟨rfl,rfl,nofun⟩,.inr ⟨record,rfl,hcode,.inr rfl⟩⟩,?_⟩
    show Program.Follows _ (if n=1 then _ else _) _ _
    rw [if_neg hn]
    exact nofun

/-- A lookup locks the unused code of the user, if there is one. -/
theorem follows_lookup (userId : UUID) (tokenHash : Hmac String) :
    (PasswordResetRepository.getActiveForUserByHash userId tokenHash).Follows protocol .idle
      fun s o => match o with
        | .ok none => s=.idle
        | .ok (some record) => s=.found record ∧ record.userId=userId
        | .error _ => True := by
  intro rows hrows
  have hunused : ∀ r : PasswordResetToken, (r.tokenHash==tokenHash && r.userId==userId &&
      r.usedAt.isNone)=true → r.usedAt=none := by
    intro r hr
    simp only [Bool.and_eq_true,Option.isNone_iff_eq_none] at hr
    exact hr.2
  match rows,hrows with
  | [],_ => exact ⟨.idle,⟨rfl,hunused,.inl ⟨rfl,rfl⟩⟩,rfl⟩
  | [record],hrows =>
    have hq := hrows record (List.mem_singleton_self record)
    simp only [Bool.and_eq_true,beq_iff_eq] at hq
    exact ⟨.found record,⟨rfl,hunused,.inr (.inl ⟨record,rfl,rfl⟩)⟩,rfl,hq.1.2⟩
  | _::_::_,_ => exact ⟨.closed,⟨rfl,hunused,.inr (.inr ⟨by simp,rfl⟩)⟩,trivial⟩

/-- A password change uses the code before its commit. -/
theorem follows_changePassword (user : LoadedUser) (record : PasswordResetToken) (now : Instant)
    (newPassword identifier account : String) (huser : record.userId=user.row.id) :
    (changePassword d user record now newPassword identifier account ip ua).Follows protocol
      (.checked record) Anything := by
  refine bind_quiet (quiet_inside (inside_hashPassword d newPassword) (by decide) (by decide)
    (by decide) (by decide)) (fun hash => ?_) fun _ => trivial
  refine (follows_flushUpdatePassword user record hash huser).bind (fun s _ hs => ?_)
    fun _ _ _ => trivial
  obtain rfl : s=.rewritten record := hs
  refine (follows_flushUsed record now).bind (fun s _ hs => ?_) fun _ _ _ => trivial
  obtain rfl : s=.used record := hs rfl
  have hquiet : ∀ {β γ : Type} {p : Action β} {f : β → Action γ} {fp : List Access},
      Inside p fp → (∀ a∈codeAccesses,a∉fp) → .update .users∉fp → .commit∉fp →
      .rollback∉fp → (∀ b, (f b).Follows protocol (.used record) Anything) →
      (p.bind f).Follows protocol (.used record) Anything :=
    fun hp hc hu hm hr hf => bind_quiet (quiet_inside hp hc hu hm hr) hf fun _ => trivial
  refine hquiet (inside_listActiveSessionIdsForUser user.row.id) (by decide) (by decide)
    (by decide) (by decide) fun ids => ?_
  refine hquiet (inside_revokeTokensWhere _ _) (by decide) (by decide) (by decide)
    (by decide) fun _ => ?_
  refine hquiet (inside_revokeSessionsWhere _) (by decide) (by decide) (by decide)
    (by decide) fun _ => ?_
  refine hquiet (inside_markAccessSessionsRevoked d ids) (by decide) (by decide) (by decide)
    (by decide) fun _ => ?_
  refine hquiet (inside_clearFailures d _ _) (by decide) (by decide) (by decide)
    (by decide) fun _ => ?_
  refine hquiet (inside_clearFailures d _ _) (by decide) (by decide) (by decide)
    (by decide) fun _ => ?_
  refine bind_quiet (quiet_logEvent d ip ua _ _ _ _) (fun _ => ?_) fun _ => trivial
  exact fun _ _ => ⟨.changed,.inr (.inr ⟨record,rfl,rfl⟩),trivial⟩

/-- A reset follows the protocol of reset codes. -/
theorem follows_resetPassword (email code newPassword : String) :
    (resetPassword d email code newPassword ip ua).Follows protocol .idle Anything := by
  have hlocked : ∀ scope identifier, (assertNotLocked d scope identifier).Within Quiet :=
    fun _ _ => quiet_inside (inside_assertNotLocked _ _ _) (by decide) (by decide) (by decide)
      (by decide)
  have hidle : ∃ s', moves .idle (.sql .commit) () s' := ⟨.idle,.inl ⟨.inl rfl,rfl⟩⟩
  refine bind_quiet (hlocked _ _) (fun _ => ?_) fun _ => trivial
  refine bind_quiet (hlocked _ _) (fun _ => ?_) fun _ => trivial
  refine bind_quiet (quiet_load _) (fun found => ?_) fun _ => trivial
  cases found with
  | none => exact follows_refuseCode d _ _ none hidle
  | some user =>
    simp only [Program.monad_throw,Program.monad_bind]
    split
    · trivial
    · refine (follows_lookup user.row.id _).bind (fun s found hs => ?_) fun _ _ _ => trivial
      cases found with
      | none =>
        obtain rfl : s=.idle := hs
        exact follows_refuseCode d _ _ _ hidle
      | some record =>
        obtain ⟨rfl,huser⟩ : s=.found record ∧ record.userId=user.row.id := hs
        have hfound : ∃ s', moves (.found record) (.sql .commit) () s' :=
          ⟨.closed,.inr (.inl ⟨record,.inl rfl,rfl⟩)⟩
        dsimp only
        split
        · exact follows_refuseCode d _ _ _ hfound
        · intro now _
          by_cases hexpired : record.expiresAt<now
          · refine ⟨.found record,.inl rfl,?_⟩
            have hrefuse := follows_refuseCode d (d.lower email++":"++orUnknown ip)
              (d.lower email) (some user) hfound
            simpa [hexpired] using hrefuse
          · refine ⟨.checked record,.inr ⟨record,rfl,Nat.le_of_not_lt hexpired,rfl⟩,?_⟩
            have hchange := follows_changePassword d ip ua user record now newPassword
              (d.lower email++":"++orUnknown ip) (d.lower email) huser
            simpa [hexpired] using hchange

/-- Every request follows the protocol of reset codes. -/
theorem follows_served (client : ClientRequest) :
    (served d client).Follows protocol .idle Anything := by
  have hrespond : (respond d client).Follows protocol .idle Anything := by
    by_cases hrequest : ∀ email, client.request≠.requestReset email
    · by_cases hreset : ∀ email code password, client.request≠.resetPassword email code password
      · have hordinary := ordinary_respond d client hrequest hreset
        exact (Program.Follows.of_within hordinary fun _ r hop => moves_ordinary r hop).mono
          fun _ _ _ => trivial
      · obtain ⟨request,ip,ua⟩ := client
        simp only [ne_eq,not_forall,not_not] at hreset
        obtain ⟨email,code,password,rfl⟩ := hreset
        exact (follows_resetPassword d ip ua email code password).bind (fun _ _ _ => trivial)
          fun _ _ _ => trivial
    · obtain ⟨request,ip,ua⟩ := client
      simp only [ne_eq,not_forall,not_not] at hrequest
      obtain ⟨email,rfl⟩ := hrequest
      exact (follows_requestReset d ip ua email).bind (fun _ _ _ => trivial) fun _ _ _ => trivial
  exact hrespond.bind (fun _ _ _ => trivial) fun _ _ _ => trivial

end Resets

section Codes

/-- The codes of the database. -/
abbrev CodeCells := List (Cell PasswordResetToken)

/-- No reading of the tables has two codes with one identifier, and a code that
reads as used stays used when more transactions commit. -/
structure Orderly (cells : CodeCells) : Prop where
  /-- Identifiers are unique. -/
  unique : ∀ S n m a b, mergedAt S cells n=some a → mergedAt S cells m=some b → a.id=b.id → n=m
  /-- Used codes stay used. -/
  grows : ∀ S T n a, S⊆T → mergedAt S cells n=some a → a.usedAt≠none →
    ∃ b, mergedAt T cells n=some b ∧ b.id=a.id ∧ b.usedAt≠none

/-- The codes marked by a statement keep their identity and become used. -/
def Marks (f : PasswordResetToken → PasswordResetToken) : Prop :=
  ∀ r, (f r).id=r.id ∧ (f r).userId=r.userId ∧ (f r).usedAt≠none

variable {cells : CodeCells} {p : ℕ} {rows : List ℕ} {q : PasswordResetToken → Bool}
  {g : PasswordResetToken → Option PasswordResetToken}

/-- What a statement leaves of a row it locks. -/
def Keepsake (g : PasswordResetToken → Option PasswordResetToken) : Prop :=
  ∀ r, ∃ r', g r=some r' ∧ r'.id=r.id ∧ r'.userId=r.userId ∧ (r.usedAt≠none → r'.usedAt≠none)

/-- A change that keeps every row deletes none. -/
theorem keepsake_some : Keepsake some := fun r => ⟨r,rfl,rfl,rfl,id⟩

/-- Marking codes as used deletes none. -/
theorem Marks.keepsake {f : PasswordResetToken → PasswordResetToken} (hf : Marks f) :
    Keepsake fun r => some (f r) :=
  fun r => ⟨f r,rfl,(hf r).1,(hf r).2.1,fun _ => (hf r).2.2⟩

/-- A row read after a locking statement was there before it, as the same code
and not yet used if it is not used now. -/
theorem before_lockRows (hg : Keepsake g) (hr : ready p rows cells=true) {S : Set ℕ} {n : ℕ}
    {a : PasswordResetToken} (h : mergedAt S (lockRows p rows q g cells) n=some a) :
    ∃ b, mergedAt S cells n=some b ∧ b.id=a.id ∧ b.userId=a.userId ∧
      (b.usedAt≠none → a.usedAt≠none) := by
  by_cases hp : p∈S
  · rw [mergedAt_lockRows_of_mem hr hp] at h
    by_cases hn : n∈rows
    · rw [if_pos hn] at h
      obtain ⟨b,hb,ha⟩ := Option.bind_eq_some_iff.mp h
      obtain ⟨b',hb',hid,huser,hused⟩ := hg b
      by_cases hq : q b=true
      · rw [if_pos hq,hb'] at ha
        obtain rfl : b'=a := Option.some.inj ha
        exact ⟨b,hb,hid.symm,huser.symm,hused⟩
      · rw [if_neg hq] at ha
        have hab : b=a := Option.some.inj ha
        exact ⟨a,hab ▸ hb,rfl,rfl,id⟩
    · rw [if_neg hn] at h
      exact ⟨a,h,rfl,rfl,id⟩
  · rw [mergedAt_lockRows_of_notMem hr hp] at h
    exact ⟨a,h,rfl,rfl,id⟩

/-- A row read before a locking statement is there after it. -/
theorem after_lockRows (hg : Keepsake g) (hr : ready p rows cells=true) {S : Set ℕ} {n : ℕ}
    {b : PasswordResetToken} (h : mergedAt S cells n=some b) :
    ∃ a, mergedAt S (lockRows p rows q g cells) n=some a ∧ a.id=b.id ∧
      (b.usedAt≠none → a.usedAt≠none) := by
  by_cases hp : p∈S
  · rw [mergedAt_lockRows_of_mem hr hp]
    by_cases hn : n∈rows
    · rw [if_pos hn,h,Option.bind_some]
      obtain ⟨b',hb',hid,_,hused⟩ := hg b
      by_cases hq : q b=true
      · exact ⟨b',by rw [if_pos hq,hb'],hid,hused⟩
      · exact ⟨b,by rw [if_neg hq],rfl,id⟩
    · exact ⟨b,by rw [if_neg hn,h],rfl,id⟩
  · exact ⟨b,by rw [mergedAt_lockRows_of_notMem hr hp,h],rfl,id⟩

/-- Rows are written by a request that holds their locks. -/
theorem Orderly.lockRows (h : Orderly cells) (hg : Keepsake g) (hr : ready p rows cells=true) :
    Orderly (lockRows p rows q g cells) := by
  constructor
  · intro S n m a b ha hb hab
    obtain ⟨a',ha',hida,_⟩ := before_lockRows hg hr ha
    obtain ⟨b',hb',hidb,_⟩ := before_lockRows hg hr hb
    exact h.unique S n m a' b' ha' hb' (hida.trans (hab.trans hidb.symm))
  · intro S T n a hST ha hused
    by_cases hpS : p∈S
    · have hpT : p∈T := hST hpS
      rw [mergedAt_lockRows_of_mem hr hpS] at ha
      rw [mergedAt_lockRows_of_mem hr hpT]
      by_cases hn : n∈rows
      · rw [if_pos hn] at ha ⊢
        obtain ⟨b,hb,hba⟩ := Option.bind_eq_some_iff.mp ha
        -- The row is not locked by another transaction, so both readings agree.
        have hlt : n<cells.length := mergedAt_lt hb
        have hcell : cells[n]?=some cells[n] := List.getElem?_eq_getElem hlt
        have hfree : cells[n].free p=true := free_of_ready hr hn hcell
        have hbT : mergedAt T cells n=some b := by
          rw [mergedAt,hcell,Option.bind_some,Cell.merged_eq_view hfree hpT]
          rw [mergedAt,hcell,Option.bind_some,Cell.merged_eq_view hfree hpS] at hb
          exact hb
        exact ⟨a,by rw [hbT,Option.bind_some,hba],rfl,hused⟩
      · rw [if_neg hn] at ha ⊢
        exact h.grows S T n a hST ha hused
    · rw [mergedAt_lockRows_of_notMem hr hpS] at ha
      obtain ⟨b,hb,hid,hbused⟩ := h.grows S T n a hST ha hused
      obtain ⟨a',ha',hid',hused'⟩ := after_lockRows (q := q) hg hr hb
      exact ⟨a',ha',hid'.trans hid,hused' hbused⟩

/-- A new code reads as unused and shares its identifier with no other one. -/
theorem Orderly.append (h : Orderly cells) {row : PasswordResetToken} (hnew : row.usedAt=none)
    (hapart : ∀ S n a, p∈S → mergedAt S cells n=some a → a.id≠row.id) :
    Orderly (cells++[⟨none,some p,some row⟩]) := by
  have hread : ∀ S n a, mergedAt S (cells++[⟨none,some p,some row⟩]) n=some a →
      (n=cells.length ∧ p∈S ∧ a=row) ∨ (n≠cells.length ∧ mergedAt S cells n=some a) := by
    intro S n a ha
    rw [mergedAt_append] at ha
    by_cases hn : n=cells.length
    · rw [if_pos hn] at ha
      by_cases hp : p∈S
      · rw [Cell.merged_of_holder rfl hp] at ha
        exact .inl ⟨hn,hp,(Option.some.inj ha).symm⟩
      · simp [Cell.merged,hp] at ha
    · rw [if_neg hn] at ha
      exact .inr ⟨hn,ha⟩
  constructor
  · intro S n m a b ha hb hab
    rcases hread S n a ha with ⟨hn,hp,rfl⟩ | ⟨hn,ha'⟩ <;>
      rcases hread S m b hb with ⟨hm,hp',rfl⟩ | ⟨hm,hb'⟩
    · omega
    · exact absurd hab.symm (hapart S m b hp hb')
    · exact absurd hab (hapart S n a hp' ha')
    · exact h.unique S n m a b ha' hb' hab
  · intro S T n a hST ha hused
    rcases hread S n a ha with ⟨_,_,rfl⟩ | ⟨hn,ha⟩
    · exact absurd hnew hused
    · rw [mergedAt_append,if_neg hn]
      exact h.grows S T n a hST ha hused

/-- A COMMIT leaves the cells orderly. -/
theorem Orderly.settle (h : Orderly cells) (p : ℕ) : Orderly (cells.map (·.settle p)) := by
  constructor
  · intro S n m a b ha hb hab
    rw [mergedAt_settle] at ha hb
    exact h.unique _ n m a b ha hb hab
  · intro S T n a hST ha hused
    rw [mergedAt_settle] at ha ⊢
    exact h.grows _ _ n a (Set.insert_subset_insert hST) ha hused

/-- A ROLLBACK leaves the cells orderly. -/
theorem Orderly.release (h : Orderly cells) (p : ℕ) : Orderly (cells.map (·.release p)) := by
  constructor
  · intro S n m a b ha hb hab
    rw [mergedAt_release] at ha hb
    exact h.unique _ n m a b ha hb hab
  · intro S T n a hST ha hused
    rw [mergedAt_release] at ha ⊢
    exact h.grows _ _ n a (fun x hx => ⟨hST hx.1,hx.2⟩) ha hused

/-- A transaction holds an unused code; its own version satisfies a condition. -/
def Holds (cells : CodeCells) (i : ℕ) (record : PasswordResetToken)
    (P : PasswordResetToken → Prop) : Prop :=
  record.usedAt=none ∧ ∃ n c w, Owns i cells n c ∧ c.committed=some record ∧ c.working=some w ∧
    w.id=record.id ∧ P w

/-- The locks of a request. -/
def Locks (cells : CodeCells) (i : ℕ) : Phase → Prop
  | .idle => Unlocked i cells
  | .found record => Holds cells i record fun _ => True
  | .checked record => Holds cells i record fun _ => True
  | .rewritten record => Holds cells i record fun _ => True
  | .used record => Holds cells i record fun w => w.usedAt≠none
  | _ => True

/-- What a request has left in the history. -/
def Looked (history : List (Event authSignature)) (i : ℕ) (record : PasswordResetToken) : Prop :=
  ∃ q, ⟨i,.sql (.selectForUpdate .passwordResetTokens q),[record]⟩∈history

/-- A request has changed the password of a user, not necessarily committed. -/
def Rewrote (history : List (Event authSignature)) (i : ℕ) (userId : UUID) : Prop :=
  ∃ e∈history, e.pid=i ∧ Rewrites userId e.op

/-- A request read the clock after it had locked the code, before its expiry. -/
def Decided (history : List (Event authSignature)) (i : ℕ) (record : PasswordResetToken) : Prop :=
  ∃ later earlier q t, history=later++⟨i,.sql (.selectForUpdate .passwordResetTokens q),
    [record]⟩::earlier ∧ ⟨i,.external .now,t⟩∈later ∧ t≤record.expiresAt

/-- A lookup is in the history. -/
def Found (history : List (Event authSignature)) (i : ℕ) (record : PasswordResetToken) : Prop :=
  ∃ later earlier q, history=later++⟨i,.sql (.selectForUpdate .passwordResetTokens q),
    [record]⟩::earlier

/-- The history of a request in each phase. -/
def Traces (history : List (Event authSignature)) (i : ℕ) : Phase → Prop
  | .idle => (∀ r, ¬Looked history i r) ∧ ∀ u, ¬Rewrote history i u
  | .writing => (∀ r, ¬Looked history i r) ∧ ∀ u, ¬Rewrote history i u
  | .found record => (∀ r, Looked history i r → r=record) ∧ Found history i record ∧
    ∀ u, ¬Rewrote history i u
  | .checked record => (∀ r, Looked history i r → r=record) ∧ Decided history i record ∧
    ∀ u, ¬Rewrote history i u
  | .rewritten record => (∀ r, Looked history i r → r=record) ∧ Decided history i record ∧
    ∀ u, Rewrote history i u → u=record.userId
  | .used record => (∀ r, Looked history i r → r=record) ∧ Decided history i record ∧
    ∀ u, Rewrote history i u → u=record.userId
  | _ => True

/-- The invariant of codes, history and phases. -/
structure Codes (cells : CodeCells) (history : List (Event authSignature))
    (states : ℕ → Phase) : Prop where
  /-- Codes are unique and stay used. -/
  orderly : Orderly cells
  /-- Requests hold what their phase says. -/
  locks : ∀ i, Locks cells i (states i)
  /-- Requests have done what their phase says. -/
  traces : ∀ i, Traces history i (states i)

end Codes

section Events

variable {history : List (Event authSignature)} {e : Event authSignature} {i : ℕ}
  {record : PasswordResetToken} {userId : UUID}

/-- A code is newly looked up by the event that returned it alone. -/
theorem looked_cons : Looked (e::history) i record ↔ Looked history i record ∨
    ∃ q, e=⟨i,.sql (.selectForUpdate .passwordResetTokens q),[record]⟩ := by
  constructor
  · rintro ⟨q,hq⟩
    rcases List.mem_cons.mp hq with he | hold
    · exact .inr ⟨q,he.symm⟩
    · exact .inl ⟨q,hold⟩
  · rintro (⟨q,hq⟩ | ⟨q,rfl⟩)
    · exact ⟨q,List.mem_cons_of_mem _ hq⟩
    · exact ⟨q,List.mem_cons_self⟩

/-- A password is newly written by the event that writes it alone. -/
theorem rewrote_cons : Rewrote (e::history) i userId ↔ Rewrote history i userId ∨
    (e.pid=i ∧ Rewrites userId e.op) := by
  constructor
  · rintro ⟨e',he',hrest⟩
    rcases List.mem_cons.mp he' with rfl | hold
    · exact .inr hrest
    · exact .inl ⟨e',hold,hrest⟩
  · rintro (⟨e',he',hrest⟩ | hrest)
    · exact ⟨e',List.mem_cons_of_mem _ he',hrest⟩
    · exact ⟨e,List.mem_cons_self,hrest⟩

/-- What a request decided on stays in the history. -/
theorem Decided.cons (h : Decided history i record) (e : Event authSignature) :
    Decided (e::history) i record := by
  obtain ⟨later,earlier,q,t,rfl,ht,hle⟩ := h
  exact ⟨e::later,earlier,q,t,rfl,List.mem_cons_of_mem _ ht,hle⟩

/-- What a request found stays in the history. -/
theorem Found.cons (h : Found history i record) (e : Event authSignature) :
    Found (e::history) i record := by
  obtain ⟨later,earlier,q,rfl⟩ := h
  exact ⟨e::later,earlier,q,rfl⟩

/-- A clock reading decides about the code found before it. -/
theorem Found.decided (h : Found history i record) {t : Instant} (ht : t≤record.expiresAt) :
    Decided (⟨i,.external .now,t⟩::history) i record := by
  obtain ⟨later,earlier,q,rfl⟩ := h
  exact ⟨_::later,earlier,q,t,rfl,List.mem_cons_self,ht⟩

/-- An event that is neither a lookup nor a password change of the request. -/
structure Neutral (i : ℕ) (e : Event authSignature) : Prop where
  /-- It is no lookup. -/
  lookup : ∀ q record, e≠⟨i,.sql (.selectForUpdate .passwordResetTokens q),[record]⟩
  /-- It changes no password. -/
  rewrite : ∀ userId, ¬(e.pid=i ∧ Rewrites userId e.op)

/-- An event that neither looks a code up nor writes a password is neutral. -/
theorem neutral_of_op (hlookup : ∀ q, e.op≠.sql (.selectForUpdate .passwordResetTokens q))
    (hkeeps : ∀ userId, ¬Rewrites userId e.op) : Neutral i e := by
  constructor
  · exact fun q record he => hlookup q (congrArg Event.op he)
  · exact fun userId hrewrite => hkeeps userId hrewrite.2

/-- Neutral events keep the history of every phase. -/
theorem Traces.cons {s : Phase} (h : Traces history i s) (hn : Neutral i e) :
    Traces (e::history) i s := by
  have hlooked : ∀ r, Looked (e::history) i r → Looked history i r := by
    intro r hr
    rcases looked_cons.mp hr with hold | ⟨q,he⟩
    · exact hold
    · exact absurd he (hn.lookup q r)
  have hrewrote : ∀ u, Rewrote (e::history) i u → Rewrote history i u := by
    intro u hu
    rcases rewrote_cons.mp hu with hold | hnew
    · exact hold
    · exact absurd hnew (hn.rewrite u)
  cases s with
  | idle => exact ⟨fun r hr => h.1 r (hlooked r hr),fun u hu => h.2 u (hrewrote u hu)⟩
  | writing => exact ⟨fun r hr => h.1 r (hlooked r hr),fun u hu => h.2 u (hrewrote u hu)⟩
  | found record =>
    exact ⟨fun r hr => h.1 r (hlooked r hr),h.2.1.cons e,fun u hu => h.2.2 u (hrewrote u hu)⟩
  | checked record =>
    exact ⟨fun r hr => h.1 r (hlooked r hr),h.2.1.cons e,fun u hu => h.2.2 u (hrewrote u hu)⟩
  | rewritten record =>
    exact ⟨fun r hr => h.1 r (hlooked r hr),h.2.1.cons e,fun u hu => h.2.2 u (hrewrote u hu)⟩
  | used record =>
    exact ⟨fun r hr => h.1 r (hlooked r hr),h.2.1.cons e,fun u hu => h.2.2 u (hrewrote u hu)⟩
  | changed => trivial
  | closed => trivial

/-- Events of other requests are neutral. -/
theorem neutral_of_ne (h : e.pid≠i) : Neutral i e := by
  constructor
  · rintro q record rfl
    exact h rfl
  · exact fun _ hrewrite => h hrewrite.1

end Events

section Steps

variable {cells cells' : CodeCells} {history : List (Event authSignature)} {states : ℕ → Phase}
  {e : Event authSignature} {i : ℕ} {t : Phase}

/-- The step of another request keeps the locks of a request. -/
theorem Locks.keep {j : ℕ} {s : Phase} (h : Locks cells j s)
    (howns : ∀ n c, Owns j cells n c → Owns j cells' n c)
    (hunlocked : Unlocked j cells → Unlocked j cells') : Locks cells' j s := by
  have hholds : ∀ record P, Holds cells j record P → Holds cells' j record P := by
    rintro record P ⟨hunused,n,c,w,hc,hrest⟩
    exact ⟨hunused,n,c,w,howns n c hc,hrest⟩
  cases s with
  | idle => exact hunlocked h
  | writing => trivial
  | found record => exact hholds record _ h
  | checked record => exact hholds record _ h
  | rewritten record => exact hholds record _ h
  | used record => exact hholds record _ h
  | changed => trivial
  | closed => trivial

/-- One step of one request. -/
theorem Codes.step (h : Codes cells history states) (hpid : e.pid=i) (horderly : Orderly cells')
    (howns : ∀ j n c, i≠j → Owns j cells n c → Owns j cells' n c)
    (hunlocked : ∀ j, i≠j → Unlocked j cells → Unlocked j cells')
    (hlocks : Locks cells' i t) (htraces : Traces (e::history) i t) :
    Codes cells' (e::history) (Function.update states i t) := by
  refine ⟨horderly,fun j => ?_,fun j => ?_⟩
  · by_cases hij : i=j
    · subst hij
      rwa [Function.update_self]
    · rw [Function.update_of_ne (Ne.symm hij)]
      exact (h.locks j).keep (howns j · · hij) (hunlocked j hij)
  · by_cases hij : i=j
    · subst hij
      rwa [Function.update_self]
    · rw [Function.update_of_ne (Ne.symm hij)]
      exact (h.traces j).cons (neutral_of_ne (hpid ▸ hij))

/-- A step that leaves the codes alone. -/
theorem Codes.quiet (h : Codes cells history states) (hpid : e.pid=i)
    (hlocks : Locks cells i t) (htraces : Traces (e::history) i t) :
    Codes cells (e::history) (Function.update states i t) :=
  h.step hpid h.orderly (fun _ _ _ _ h => h) (fun _ _ h => h) hlocks htraces

/-- A locking step. -/
theorem Codes.lockRows {rows : List ℕ} {q : PasswordResetToken → Bool}
    {g : PasswordResetToken → Option PasswordResetToken} (h : Codes cells history states)
    (hpid : e.pid=i) (hg : Keepsake g) (hr : ready i rows cells=true)
    (hlocks : Locks (RowLocking.lockRows i rows q g cells) i t)
    (htraces : Traces (e::history) i t) :
    Codes (RowLocking.lockRows i rows q g cells) (e::history) (Function.update states i t) :=
  h.step hpid (h.orderly.lockRows hg hr) (fun _ _ _ hij hc => hc.lockRows_of_ne hij hr)
    (fun _ hij hc => hc.lockRows_of_ne hij) hlocks htraces

/-- A lookup leaves its transaction with the lock of the code it returns. -/
theorem Codes.lookup {rows : List ℕ} {q : PasswordResetToken → Bool}
    (h : Codes cells history states) (hidle : states i=.idle) (hr : ready i rows cells=true)
    (hmoves : (matched i rows q cells=[] ∧ t=.idle) ∨
      (∃ record, matched i rows q cells=[record] ∧ t=.found record) ∨
        (2≤(matched i rows q cells).length ∧ t=.closed))
    (hq : ∀ r, q r=true → r.usedAt=none) :
    Codes (RowLocking.lockRows i rows q some cells)
      (⟨i,.sql (.selectForUpdate .passwordResetTokens q),matched i rows q cells⟩::history)
      (Function.update states i t) := by
  have hlocks := h.locks i
  have htraces := h.traces i
  rw [hidle] at hlocks htraces
  have hfree : Unlocked i cells := hlocks
  rcases hmoves with ⟨hnil,rfl⟩ | ⟨record,hone,rfl⟩ | ⟨_,rfl⟩
  · have hsame : RowLocking.lockRows i rows q some cells=cells := lockRows_of_matched_nil hnil
    rw [hsame,hnil]
    refine h.quiet rfl hlocks (htraces.cons ⟨?_,?_⟩)
    · intro q' record he
      cases he
    · exact fun _ hrewrite => hrewrite.2
  · refine h.lockRows rfl keepsake_some hr ?_ ?_
    · have hmem : record∈matched i rows q cells := by
        rw [hone]
        exact List.mem_singleton_self record
      obtain ⟨hrecord,n,c,_,hc,hview,howns⟩ := owns_of_matched hmem rfl
      have hcommitted : c.committed=some record := by
        have hholder : c.holder≠some i := hfree c (List.mem_of_getElem? hc)
        rwa [Cell.view,if_neg hholder] at hview
      exact ⟨hq record hrecord,n,_,record,howns,hcommitted,rfl,rfl,trivial⟩
    · rw [hone]
      refine ⟨fun r hr => ?_,⟨[],history,q,rfl⟩,fun u hu => ?_⟩
      · rcases looked_cons.mp hr with hold | ⟨q',he⟩
        · exact absurd hold (htraces.1 r)
        · cases he
          rfl
      · rcases rewrote_cons.mp hu with hold | hnew
        · exact htraces.2 u hold
        · exact hnew.2
  · exact h.lockRows rfl keepsake_some hr trivial trivial

/-- The update of the code that a request has locked uses it. -/
theorem Codes.use {rows : List ℕ} {q : PasswordResetToken → Bool} {record : PasswordResetToken}
    {f : PasswordResetToken → PasswordResetToken} (h : Codes cells history states)
    (hrewritten : states i=.rewritten record) (hf : Marks f) (hr : ready i rows cells=true)
    (hq : ∀ r, q r=true → r.id=record.id) (hn : (matched i rows q cells).length=1) :
    Codes (RowLocking.lockRows i rows q (fun r => some (f r)) cells)
      (⟨i,.sql (.update .passwordResetTokens q f),(matched i rows q cells).length⟩::history)
      (Function.update states i (.used record)) := by
  have hlocks := h.locks i
  have htraces := h.traces i
  rw [hrewritten] at hlocks htraces
  obtain ⟨hunused,n,c,w,hc,hcommitted,hworking,hid,_⟩ := hlocks
  refine h.lockRows rfl hf.keepsake hr ?_ ?_
  · obtain ⟨r,hr'⟩ := List.length_eq_one_iff.mp hn
    have hmem : r∈matched i rows q cells := by
      rw [hr']
      exact List.mem_singleton_self r
    obtain ⟨hqr,m,c',_,hc',hview,howns⟩ := owns_of_matched (g := fun r => some (f r)) hmem rfl
    -- The matched row has the identifier of the locked one, so it is that row.
    have hn' : mergedAt {i} cells n=some w := by
      rw [mergedAt,hc.1,Option.bind_some,Cell.merged_singleton,Cell.view,if_pos hc.2,hworking]
    have hm' : mergedAt {i} cells m=some r := by
      rw [mergedAt,hc',Option.bind_some,Cell.merged_singleton,hview]
    have hnm : n=m := h.orderly.unique {i} n m w r hn' hm' (hid.trans (hq r hqr).symm)
    subst hnm
    have hcc : c=c' := Option.some.inj (hc.1.symm.trans hc')
    subst hcc
    exact ⟨hunused,n,_,f r,howns,hcommitted,rfl,(hf r).1.trans (hq r hqr),(hf r).2.2⟩
  · have hneutral : Neutral i (⟨i,.sql (.update .passwordResetTokens q f),
        (matched i rows q cells).length⟩ : Event authSignature) := by
      constructor
      · intro q' r he
        cases he
      · exact fun _ hrewrite => hrewrite.2
    have hkept : Traces _ i (.rewritten record) := Traces.cons htraces hneutral
    exact hkept

end Steps

section Runs

/-- A code with the identifier is used in the committed tables. -/
def Spent (cells : CodeCells) (id : UUID) : Prop :=
  ∃ n a, mergedAt ∅ cells n=some a ∧ a.id=id ∧ a.usedAt≠none

/-- A spent code stays spent under the writes of every other request. -/
theorem Spent.lockRows {cells : CodeCells} {id : UUID} (h : Spent cells id) {i : ℕ}
    {rows : List ℕ} (q : PasswordResetToken → Bool)
    (g : PasswordResetToken → Option PasswordResetToken) (hr : ready i rows cells=true) :
    Spent (RowLocking.lockRows i rows q g cells) id := by
  obtain ⟨n,a,ha,hrest⟩ := h
  exact ⟨n,a,by rwa [mergedAt_lockRows_of_notMem hr (Set.notMem_empty i)],hrest⟩

/-- A spent code stays spent when a row is added. -/
theorem Spent.append {cells : CodeCells} {id : UUID} (h : Spent cells id)
    (c : Cell PasswordResetToken) : Spent (cells++[c]) id := by
  obtain ⟨n,a,ha,hrest⟩ := h
  have hlt : n<cells.length := mergedAt_lt ha
  exact ⟨n,a,by rwa [mergedAt_append,if_neg (by omega)],hrest⟩

/-- A spent code stays spent when a request commits. -/
theorem Spent.settle {cells : CodeCells} {id : UUID} (h : Spent cells id)
    (horderly : Orderly cells) (i : ℕ) : Spent (cells.map (·.settle i)) id := by
  obtain ⟨n,a,ha,hid,hused⟩ := h
  obtain ⟨b,hb,hba,hbused⟩ := horderly.grows ∅ (insert i ∅) n a (Set.empty_subset _) ha hused
  exact ⟨n,b,by rwa [mergedAt_settle],hba.trans hid,hbused⟩

/-- A spent code stays spent when a request rolls back. -/
theorem Spent.release {cells : CodeCells} {id : UUID} (h : Spent cells id) (i : ℕ) :
    Spent (cells.map (·.release i)) id := by
  obtain ⟨n,a,ha,hrest⟩ := h
  have hempty : (∅ : Set ℕ)\{i}=∅ := Set.eq_empty_of_subset_empty fun x hx => hx.1
  exact ⟨n,a,by rwa [mergedAt_release,hempty],hrest⟩

/-- A statement that leaves the codes alone. -/
theorem Codes.other {cells : CodeCells} {history : List (Event authSignature)}
    {states : ℕ → Phase} {i : ℕ} {op : Effect} {r : op.Reply} {t : Phase}
    (h : Codes cells history states)
    (hlookup : ∀ q, op≠.sql (.selectForUpdate .passwordResetTokens q))
    (hm : (Quiet op ∧ t=states i) ∨ ∃ record, states i=.checked record ∧
      (∀ userId, Rewrites userId op → userId=record.userId) ∧
      (∃ q f, op=.sql (.update .users q f)) ∧ t=.rewritten record) :
    Codes cells (⟨i,op,r⟩::history) (Function.update states i t) := by
  have hlocks := h.locks i
  have htraces := h.traces i
  rcases hm with ⟨⟨⟨_,hkeeps⟩,_⟩,rfl⟩ | ⟨record,hchecked,hown,_,rfl⟩
  · refine h.quiet rfl hlocks (htraces.cons ⟨?_,fun u hu => hkeeps u hu.2⟩)
    intro q record he
    exact hlookup q (congrArg Event.op he)
  · rw [hchecked] at hlocks htraces
    refine h.quiet rfl hlocks ⟨?_,htraces.2.1.cons _,?_⟩
    · intro r' hr'
      rcases looked_cons.mp hr' with hold | ⟨q,he⟩
      · exact htraces.1 r' hold
      · exact absurd (congrArg Event.op he) (hlookup q)
    · intro u hu
      rcases rewrote_cons.mp hu with hold | hnew
      · exact absurd hold (htraces.2.2 u)
      · exact hown u hnew.2

/-- A marking update of a request that has committed to no code. -/
theorem Codes.write {cells cells' : CodeCells} {history : List (Event authSignature)}
    {states : ℕ → Phase} {i : ℕ} {e : Event authSignature} (h : Codes cells history states)
    (hpid : e.pid=i) (hs : states i=.idle ∨ states i=.writing) (hn : Neutral i e)
    (horderly : Orderly cells')
    (howns : ∀ j n c, i≠j → Owns j cells n c → Owns j cells' n c)
    (hunlocked : ∀ j, i≠j → Unlocked j cells → Unlocked j cells') :
    Codes cells' (e::history) (Function.update states i .writing) := by
  refine h.step hpid horderly howns hunlocked trivial ?_
  have htraces := (h.traces i).cons hn
  rcases hs with hs | hs
  · rw [hs] at htraces
    exact htraces
  · rw [hs] at htraces
    exact htraces

/-- An answered effect keeps the codes, and spent ones stay spent. -/
abbrev KeepsCodes (cells cells' : CodeCells) (history : List (Event authSignature))
    (states : ℕ → Phase) (i : ℕ) (op : Effect) (reply : op.Reply) (t : Phase) : Prop :=
  Codes cells' (⟨i,op,reply⟩::history) (Function.update states i t) ∧
    ∀ id, Spent cells id → Spent cells' id

section Statements

variable {s s' : Tables authSchema} {history : List (Event authSignature)}
  {states : ℕ → Phase} {i : ℕ} {t : Phase}

/-- The locking look-up of a code. -/
theorem codes_looked {q : PasswordResetToken → Bool} {reply : List PasswordResetToken}
    (h : Codes (s.cells .passwordResetTokens) history states)
    (hm : moves (states i) (.sql (.selectForUpdate .passwordResetTokens q)) reply t)
    (hf : s.fire i (Statement.selectForUpdate (D := authSchema) Table.passwordResetTokens q)=
      some (some reply,s')) :
    KeepsCodes (s.cells .passwordResetTokens) (s'.cells .passwordResetTokens) history states i
      (.sql (.selectForUpdate .passwordResetTokens q)) reply t := by
  obtain ⟨rows,hr,rfl,hs⟩ := Tables.locking_answer hf
  have hcells := congrFun hs .passwordResetTokens
  rw [Tables.write_cells_self (_ : Tables authSchema)] at hcells
  rw [hcells]
  obtain ⟨hidle,hunused,hmoves⟩ := hm
  exact ⟨h.lookup hidle hr hmoves hunused,fun _ hspent => hspent.lockRows q some hr⟩

/-- A new code. -/
theorem codes_inserted {row : PasswordResetToken} {reply : Insertion}
    (h : Codes (s.cells .passwordResetTokens) history states)
    (hm : moves (states i) (.sql (.insert .passwordResetTokens row)) reply t)
    (hf : s.fire i (Statement.insert (D := authSchema) Table.passwordResetTokens row)=
      some (some reply,s')) :
    KeepsCodes (s.cells .passwordResetTokens) (s'.cells .passwordResetTokens) history states i
      (.sql (.insert .passwordResetTokens row)) reply t := by
  obtain ⟨hnew,hs,rfl⟩ := hm
  have hneutral : Neutral i (⟨i,.sql (.insert .passwordResetTokens row),reply⟩ :
      Event authSignature) := neutral_of_op (by rintro _ ⟨⟩) fun _ => id
  rcases Tables.fire_insert_answer hf with ⟨_,rfl⟩ | ⟨rfl,_,_,rfl⟩
  · exact ⟨h.write rfl hs hneutral h.orderly (fun _ _ _ _ h => h) fun _ _ h => h,
      fun _ hspent => hspent⟩
  · rw [Tables.write_cells_self (_ : Tables authSchema)]
    have hapart : ∀ S n a, i∈S → mergedAt S (s.cells .passwordResetTokens) n=some a →
        a.id≠row.id := by
      intro S n a hi ha hid
      obtain ⟨c,hc,hca⟩ := Option.bind_eq_some_iff.mp ha
      have hconflict := Tables.apart_of_inserted hf (List.mem_of_getElem? hc) hi hca
      simp [conflict,hid] at hconflict
    refine ⟨h.write rfl hs hneutral (h.orderly.append hnew hapart)
      (fun _ _ _ _ hc => hc.append _) ?_,fun _ hspent => hspent.append _⟩
    exact fun j hij hc => hc.append fun he => hij (Option.some.inj he)

/-- An update that marks codes. -/
theorem codes_marked {q : PasswordResetToken → Bool} {f : PasswordResetToken → PasswordResetToken}
    {reply : ℕ} (h : Codes (s.cells .passwordResetTokens) history states)
    (hm : moves (states i) (.sql (.update .passwordResetTokens q f)) reply t)
    (hf : s.fire i (Statement.update (D := authSchema) Table.passwordResetTokens q f)=
      some (some reply,s')) :
    KeepsCodes (s.cells .passwordResetTokens) (s'.cells .passwordResetTokens) history states i
      (.sql (.update .passwordResetTokens q f)) reply t := by
  obtain ⟨rows,hr,rfl,hs⟩ := Tables.fire_update_answer hf
  have hcells := congrFun hs .passwordResetTokens
  rw [Tables.write_cells_self (_ : Tables authSchema)] at hcells
  rw [hcells]
  refine ⟨?_,fun _ hspent => hspent.lockRows q _ hr⟩
  have hneutral : Neutral i (⟨i,.sql (.update .passwordResetTokens q f),
      (matched i rows q (s.cells .passwordResetTokens)).length⟩ : Event authSignature) :=
    neutral_of_op (by rintro _ ⟨⟩) fun _ => id
  obtain ⟨hmarks,⟨hs,rfl⟩ | ⟨record,hs,hq,⟨hn,rfl⟩ | rfl⟩⟩ := hm
  · have hkeep : Keepsake fun r => some (f r) := Marks.keepsake hmarks
    exact h.write rfl hs hneutral (h.orderly.lockRows hkeep hr)
      (fun _ _ _ hij hc => hc.lockRows_of_ne hij hr) fun _ hij hc => hc.lockRows_of_ne hij
  · exact h.use hs hmarks hr hq hn
  · exact h.lockRows rfl (Marks.keepsake hmarks) hr trivial trivial

/-- A commit publishes the codes of its transaction. -/
theorem codes_committed (h : Codes (s.cells .passwordResetTokens) history states)
    (hm : moves (states i) (.sql .commit) () t) :
    KeepsCodes (s.cells .passwordResetTokens)
      ((s.cells .passwordResetTokens).map (·.settle i)) history states i (.sql .commit) () t := by
  refine ⟨?_,fun _ hspent => hspent.settle h.orderly i⟩
  have hneutral : Neutral i (⟨i,.sql .commit,()⟩ : Event authSignature) :=
    neutral_of_op (by rintro _ ⟨⟩) fun _ => id
  have hkept := (h.traces i).cons hneutral
  have hstep : ∀ t, Locks ((s.cells .passwordResetTokens).map (·.settle i)) i t →
      Traces (⟨i,.sql .commit,()⟩::history) i t →
      Codes ((s.cells .passwordResetTokens).map (·.settle i)) (⟨i,.sql .commit,()⟩::history)
        (Function.update states i t) := fun t hl ht =>
    h.step rfl (h.orderly.settle i) (fun _ _ _ hij hc => hc.settle_of_ne hij)
      (fun _ _ hc => hc.settle i) hl ht
  rcases hm with ⟨hs,rfl⟩ | ⟨record,_,rfl⟩ | ⟨record,_,rfl⟩
  · refine hstep .idle (unlocked_settle i _) ?_
    rcases hs with hs | hs
    · rwa [hs] at hkept
    · rwa [hs] at hkept
  · exact hstep .closed trivial trivial
  · exact hstep .changed trivial trivial

/-- A rollback drops them. -/
theorem codes_rolledBack (h : Codes (s.cells .passwordResetTokens) history states)
    (hm : moves (states i) (.sql .rollback) () t) :
    KeepsCodes (s.cells .passwordResetTokens)
      ((s.cells .passwordResetTokens).map (·.release i)) history states i (.sql .rollback) () t := by
  refine ⟨?_,fun _ hspent => hspent.release i⟩
  have hneutral : Neutral i (⟨i,.sql .rollback,()⟩ : Event authSignature) :=
    neutral_of_op (by rintro _ ⟨⟩) fun _ => id
  have hkept := (h.traces i).cons hneutral
  obtain ⟨hs,rfl⟩ := hm
  refine h.step rfl (h.orderly.release i) (fun _ _ _ hij hc => hc.release_of_ne hij)
    (fun _ _ hc => hc.release i) (unlocked_release i _) ?_
  rcases hs with hs | hs
  · rwa [hs] at hkept
  · rwa [hs] at hkept

/-- Every answered statement keeps the invariant. -/
theorem codes_statement {stmt : Statement authSchema} {reply : stmt.Reply}
    (h : Codes (s.cells .passwordResetTokens) history states)
    (hm : moves (states i) (.sql stmt) reply t) (hf : s.fire i stmt=some (some reply,s')) :
    KeepsCodes (s.cells .passwordResetTokens) (s'.cells .passwordResetTokens) history states i
      (.sql stmt) reply t := by
  have hother : s'.cells .passwordResetTokens=s.cells .passwordResetTokens →
      (∀ q, Effect.sql stmt≠.sql (.selectForUpdate .passwordResetTokens q)) →
      ((Quiet (.sql stmt) ∧ t=states i) ∨ ∃ record, states i=.checked record ∧
        (∀ userId, Rewrites userId (.sql stmt) → userId=record.userId) ∧
        (∃ q f, Effect.sql stmt=.sql (.update .users q f)) ∧ t=.rewritten record) →
      KeepsCodes (s.cells .passwordResetTokens) (s'.cells .passwordResetTokens) history states i
        (.sql stmt) reply t := by
    intro hcells hlookup hm
    rw [hcells]
    exact ⟨h.other hlookup hm,fun _ hspent => hspent⟩
  cases stmt with
  | select u q =>
    cases hf
    exact hother rfl (by rintro _ ⟨⟩) hm
  | selectForUpdate u q =>
    cases u with
    | passwordResetTokens => exact codes_looked h hm hf
    | _ =>
      obtain ⟨rows,hr,rfl,hs⟩ := Tables.locking_answer hf
      refine hother ((congrFun hs _).trans (Tables.write_cells_of_ne s _ (by rintro ⟨⟩))) ?_ hm
      intro q' he
      cases he
  | insert u row =>
    cases u with
    | passwordResetTokens => exact codes_inserted h hm hf
    | _ =>
      have hcells : s'.cells .passwordResetTokens=s.cells .passwordResetTokens := by
        rcases Tables.fire_insert_answer hf with ⟨_,rfl⟩ | ⟨_,_,_,rfl⟩
        · rfl
        · exact Tables.write_cells_of_ne s _ (by rintro ⟨⟩)
      exact hother hcells (by rintro _ ⟨⟩) hm
  | update u q f =>
    cases u with
    | passwordResetTokens => exact codes_marked h hm hf
    | _ =>
      obtain ⟨rows,hr,rfl,hs⟩ := Tables.fire_update_answer hf
      refine hother ((congrFun hs _).trans (Tables.write_cells_of_ne s _ (by rintro ⟨⟩))) ?_ hm
      rintro _ ⟨⟩
  | delete u q =>
    cases u with
    | passwordResetTokens => exact hm.elim
    | _ =>
      obtain ⟨rows,hr,rfl,hs⟩ := Tables.fire_delete_answer hf
      refine hother ((congrFun hs _).trans (Tables.write_cells_of_ne s _ (by rintro ⟨⟩))) ?_ hm
      rintro _ ⟨⟩
  | commit =>
    cases hf
    exact codes_committed h hm
  | rollback =>
    cases hf
    exact codes_rolledBack h hm

end Statements

/-- The invariant of the shared state: codes, and a set of spent codes. -/
def Inv (spent : UUID → Prop) (s : Shared) (history : List (Event authSignature))
    (states : ℕ → Phase) : Prop :=
  Codes (s.tables.cells .passwordResetTokens) history states ∧
    ∀ id, spent id → Spent (s.tables.cells .passwordResetTokens) id

/-- A request that ends gives up its locks; a committed change stays. -/
def ended : Phase → Phase
  | .changed => .changed
  | _ => .closed

/-- What every kind of move has to keep. -/
theorem obligations (d : Deployment) (spent : UUID → Prop) :
    Obligations authMachine protocol .idle Anything (Inv spent) (Starts d) ended := by
  constructor
  · rintro sys p ⟨client,rfl⟩
    exact follows_served d client
  · exact fun _ _ _ => trivial
  · intro sys states i op c s ht hf
    unfold Inv
    rw [(fire_progress hf).1]
    exact ht.inv
  · intro sys states i op c r s ht _ hf
    cases op with
    | external op => trivial
    | sql stmt =>
      cases stmt with
      | selectForUpdate u q =>
        cases u with
        | passwordResetTokens =>
          obtain ⟨rows,hr,rfl,_⟩ := Tables.locking_answer (fire_sql hf).1
          exact fun r hm => (held_of_matched some hr hm rfl).1
        | _ => trivial
      | _ => trivial
  · intro sys states i op k c r s t ht _ _ hm hf
    obtain ⟨hcodes,hspent⟩ : Inv spent sys.shared sys.history states := ht.inv
    cases op with
    | sql stmt =>
      obtain ⟨hkept,hmore⟩ := codes_statement hcodes hm (fire_sql hf).1
      exact ⟨hkept,fun id hid => hmore id (hspent id hid)⟩
    | external op =>
      obtain ⟨hr,rfl⟩ := fire_external hf
      refine ⟨?_,hspent⟩
      have hother : ((Quiet (.external op) ∧ t=states i) ∨ ∃ record, states i=.checked record ∧
          (∀ userId, Rewrites userId (.external op) → userId=record.userId) ∧
          (∃ q f, Effect.external op=.sql (.update .users q f)) ∧ t=.rewritten record) →
          Codes (sys.shared.tables.cells .passwordResetTokens) (⟨i,.external op,r⟩::sys.history)
            (Function.update states i t) := fun hm => hcodes.other (fun _ => nofun) hm
      cases op with
      | now =>
        have hneutral : Neutral i (⟨i,.external .now,r⟩ : Event authSignature) :=
          neutral_of_op (fun _ => nofun) fun _ => id
        have hlocks := hcodes.locks i
        have htraces := hcodes.traces i
        rcases hm with rfl | ⟨record,hfound,hle,rfl⟩
        · exact hcodes.quiet rfl hlocks (htraces.cons hneutral)
        · have hkept := htraces.cons hneutral
          rw [hfound] at hlocks htraces hkept
          exact hcodes.quiet rfl hlocks ⟨hkept.1,htraces.2.1.decided hle,hkept.2.2⟩
      | _ => exact hother hm
  · intro sys states i ht _
    obtain ⟨hcodes,hspent⟩ : Inv spent sys.shared sys.history states := ht.inv
    refine ⟨⟨hcodes.orderly.release i,fun j => ?_,fun j => ?_⟩,
      fun id hid => (hspent id hid).release i⟩
    · by_cases hij : i=j
      · subst hij
        rw [Function.update_self]
        cases states i <;> trivial
      · rw [Function.update_of_ne (Ne.symm hij)]
        exact (hcodes.locks j).keep (fun _ _ hc => hc.release_of_ne hij) fun hc => hc.release i
    · by_cases hij : i=j
      · subst hij
        rw [Function.update_self]
        cases states i <;> trivial
      · rw [Function.update_of_ne (Ne.symm hij)]
        exact hcodes.traces j

end Runs

section Changes

/-- A request is about to commit a change of the password of a user, and the
code it was given is the one it locked. -/
structure Redeeming (sys : AuthSystem) (i : ℕ) (record : PasswordResetToken)
    (userId : UUID) : Prop where
  /-- Its next effect is the commit. -/
  commits : ∃ k, sys.procs[i]?=some (some (.call (.sql .commit) k))
  /-- Its lookup returned the code. -/
  looked : Looked sys.history i record
  /-- It has changed the password of the user. -/
  rewrote : Rewrote sys.history i userId

/-- What reset codes are for. -/
structure CodesChangeOnePassword (d : Deployment) (env : Environment)
    (db : Database authSchema) : Prop where
  /-- Whoever commits a change of a password has locked a code. -/
  source : ∀ a i k userId, Reached d env db a →
    a.procs[i]?=some (some (.call (.sql .commit) k)) → Rewrote a.history i userId →
    ∃ record, Redeeming a i record userId
  /-- A code changes the password of its own user. -/
  ownUser : ∀ a i record userId, Reached d env db a → Redeeming a i record userId →
    userId=record.userId
  /-- The clock reading that decided about the code is not after its expiry. -/
  decided : ∀ a i record userId, Reached d env db a → Redeeming a i record userId →
    Decided a.history i record
  /-- After the commit no other change is committed for the same code. -/
  once : ∀ a a' b i c j record other userId userId', Reached d env db a →
    Redeeming a i record userId → authMachine.step a (.effect i c)=some a' →
    authMachine.Reaches (Starts d) a' b → Redeeming b j other userId' → other.id≠record.id
  /-- A code that reads as used in the committed tables leads to no change. -/
  retired : ∀ a b row j record userId, Reached d env db a →
    row∈a.shared.tables.committed .passwordResetTokens → row.usedAt≠none →
    authMachine.Reaches (Starts d) a b → Redeeming b j record userId → record.id≠row.id

variable {d : Deployment} {env : Environment} {db : Database authSchema}

/-- Committed rows without locks are orderly. -/
theorem orderly_idle (hdb : (db .passwordResetTokens).Pairwise fun a b => a.id≠b.id) :
    Orderly ((idleTables db).cells .passwordResetTokens) := by
  constructor
  · intro S n m a b ha hb hab
    rw [mergedAt_idleTables] at ha hb
    by_contra hne
    obtain ⟨hn,hna⟩ := List.getElem?_eq_some_iff.mp ha
    obtain ⟨hm,hmb⟩ := List.getElem?_eq_some_iff.mp hb
    have hpair := List.pairwise_iff_getElem.mp hdb
    rcases Nat.lt_or_gt_of_ne hne with hlt | hlt
    · exact hpair n m hn hm hlt (by rw [hna,hmb,hab])
    · exact hpair m n hm hn hlt (by rw [hna,hmb,hab])
  · intro S T n a _ ha hused
    rw [mergedAt_idleTables] at ha
    exact ⟨a,by rw [mergedAt_idleTables,ha],rfl,hused⟩

/-- Requests that have not started hold nothing and have done nothing. -/
theorem codes_idle (env : Environment)
    (hdb : (db .passwordResetTokens).Pairwise fun a b => a.id≠b.id) :
    Tracks protocol .idle Anything (Inv fun _ => False) (idleSystem env db) fun _ => .idle := by
  refine ⟨⟨⟨orderly_idle hdb,fun i => ?_,fun i => ?_⟩,fun _ => False.elim⟩,?_,fun _ _ => rfl⟩
  · intro c hc
    obtain ⟨r,_,rfl⟩ := List.mem_map.mp hc
    exact nofun
  · constructor
    · rintro r ⟨q,hq⟩
      cases hq
    · rintro u ⟨e,he,_⟩
      cases he
  · intro i p hp
    simp [idleSystem] at hp

/-- A request about to commit a password change holds its unused code. -/
theorem used_of_rewrote {spent : UUID → Prop} {sys : AuthSystem} {states : ℕ → Phase}
    (ht : Tracks protocol .idle Anything (Inv spent) sys states) {i : ℕ} {userId : UUID}
    {k : Unit → Action Served} (hcommit : sys.procs[i]?=some (some (.call (.sql .commit) k)))
    (hr : Rewrote sys.history i userId) : ∃ record, states i=.used record := by
  obtain ⟨t,hm,_⟩ := ht.follows i _ hcommit () trivial
  have hmoves : moves (states i) (.sql .commit) () t := hm
  have hcodes : Codes (sys.shared.tables.cells .passwordResetTokens) sys.history states :=
    ht.inv.1
  have htraces := hcodes.traces i
  rcases hmoves with ⟨hs | hs,_⟩ | ⟨record,hs | hs,_⟩ | ⟨record,hs,_⟩
  · rw [hs] at htraces
    exact absurd hr (htraces.2 userId)
  · rw [hs] at htraces
    exact absurd hr (htraces.2 userId)
  · rw [hs] at htraces
    exact absurd hr (htraces.2.2 userId)
  · rw [hs] at htraces
    exact absurd hr (htraces.2.2 userId)
  · exact ⟨record,hs⟩

/-- A request about to commit a redeemed code is in the phase of having used it.
-/
theorem Redeeming.used {spent : UUID → Prop} {sys : AuthSystem} {states : ℕ → Phase}
    (ht : Tracks protocol .idle Anything (Inv spent) sys states) {i : ℕ}
    {record : PasswordResetToken} {userId : UUID} (h : Redeeming sys i record userId) :
    states i=.used record := by
  obtain ⟨k,hcommit⟩ := h.commits
  obtain ⟨other,hs⟩ := used_of_rewrote ht hcommit h.rewrote
  have htraces := ht.inv.1.traces i
  rw [hs] at htraces
  rw [hs,htraces.1 record h.looked]

/-- Nobody is about to commit a change for a spent code. -/
theorem Redeeming.not_spent {spent : UUID → Prop} {sys : AuthSystem} {states : ℕ → Phase}
    (ht : Tracks protocol .idle Anything (Inv spent) sys states) {i : ℕ}
    {record : PasswordResetToken} {userId : UUID} (h : Redeeming sys i record userId) :
    ¬Spent (sys.shared.tables.cells .passwordResetTokens) record.id := by
  rintro ⟨n,a,ha,hid,hused⟩
  have hcodes : Codes (sys.shared.tables.cells .passwordResetTokens) sys.history states :=
    ht.inv.1
  have hlocks := hcodes.locks i
  rw [h.used ht] at hlocks
  obtain ⟨hunused,m,c,w,hc,hcommitted,_⟩ := hlocks
  have hm : mergedAt ∅ (sys.shared.tables.cells .passwordResetTokens) m=some record := by
    rw [mergedAt,hc.1,Option.bind_some,Cell.merged_empty,hcommitted]
  have hnm : n=m := hcodes.orderly.unique ∅ n m a record ha hm hid
  subst hnm
  have hsame : a=record := Option.some.inj (ha.symm.trans hm)
  exact hused (hsame ▸ hunused)

/-- Spent codes are spent in every later system. -/
theorem not_spent_later {a b : AuthSystem} {id : UUID} {states : ℕ → Phase}
    (ht : Tracks protocol .idle Anything (Inv fun _ => False) a states)
    (hspent : Spent (a.shared.tables.cells .passwordResetTokens) id)
    (h : authMachine.Reaches (Starts d) a b) {j : ℕ} {record : PasswordResetToken}
    {userId : UUID} (hr : Redeeming b j record userId) : record.id≠id := by
  have hstart : Tracks protocol .idle Anything (Inv fun x => x=id) a states :=
    ⟨⟨ht.inv.1,fun _ hx => hx ▸ hspent⟩,ht.follows,ht.unborn⟩
  obtain ⟨states',ht'⟩ := hstart.reaches (obligations d _) h
  rintro rfl
  exact hr.not_spent ht' (ht'.inv.2 record.id rfl)

/-- The commit of a password change spends its code. -/
theorem Redeeming.spends {sys sys' : AuthSystem} {states : ℕ → Phase}
    (ht : Tracks protocol .idle Anything (Inv fun _ => False) sys states) {i c : ℕ}
    {record : PasswordResetToken} {userId : UUID} (h : Redeeming sys i record userId)
    (hstep : authMachine.step sys (.effect i c)=some sys') :
    Spent (sys'.shared.tables.cells .passwordResetTokens) record.id := by
  have hlocks := ht.inv.1.locks i
  rw [h.used ht] at hlocks
  obtain ⟨_,n,cell,w,hcell,_,hworking,hid,hused⟩ := hlocks
  have hw : mergedAt (insert i ∅) (sys.shared.tables.cells .passwordResetTokens) n=some w := by
    rw [mergedAt,hcell.1,Option.bind_some,
      Cell.merged_of_holder hcell.2 (Set.mem_insert i ∅),hworking]
  obtain ⟨k,hcommit⟩ := h.commits
  obtain ⟨op,next,hp,hfire⟩ := Machine.step_effect hstep
  rw [hcommit] at hp
  cases hp
  have hcells : sys'.shared.tables.cells .passwordResetTokens=
      (sys.shared.tables.cells .passwordResetTokens).map (·.settle i) := by
    rcases hfire with ⟨s,hf,rfl⟩ | ⟨r,s,hf,rfl⟩
    · cases (fire_sql hf).1
    · have htables := (fire_sql hf).1
      exact congrArg (·.cells .passwordResetTokens)
        (congrArg Prod.snd (Option.some.inj htables)).symm
  rw [hcells]
  exact ⟨n,w,by rwa [mergedAt_settle],hid,hused⟩

/-- In every run a code changes at most one password, of its own user, decided
by a clock reading that is not after its expiry, and never once it is used. -/
theorem codes_change_one_password
    (hdb : (db .passwordResetTokens).Pairwise fun a b => a.id≠b.id) :
    CodesChangeOnePassword d env db := by
  have htracked : ∀ {a : AuthSystem}, Reached d env db a → ∃ states,
      Tracks protocol .idle Anything (Inv fun _ => False) a states :=
    fun h => (codes_idle env hdb).reaches (obligations d _) h
  constructor
  · intro a i k userId h hcommit hr
    obtain ⟨states,ht⟩ := htracked h
    obtain ⟨record,hs⟩ := used_of_rewrote ht hcommit hr
    have htraces := ht.inv.1.traces i
    rw [hs] at htraces
    obtain ⟨later,earlier,q,t,hhistory,_⟩ := htraces.2.1
    have hlooked : Looked a.history i record := ⟨q,by rw [hhistory]; simp⟩
    exact ⟨record,⟨k,hcommit⟩,hlooked,hr⟩
  · intro a i record userId h hr
    obtain ⟨states,ht⟩ := htracked h
    have htraces := ht.inv.1.traces i
    rw [hr.used ht] at htraces
    exact htraces.2.2 userId hr.rewrote
  · intro a i record userId h hr
    obtain ⟨states,ht⟩ := htracked h
    have htraces := ht.inv.1.traces i
    rw [hr.used ht] at htraces
    exact htraces.2.1
  · intro a a' b i c j record other userId userId' h hr hstep hlater hother
    obtain ⟨states,ht⟩ := htracked h
    have hspent := hr.spends ht hstep
    obtain ⟨states',ht'⟩ := htracked (.step (.effect i c) h trivial hstep)
    exact not_spent_later ht' hspent hlater hother
  · intro a b row j record userId h hrow hused hlater hr
    obtain ⟨states,ht⟩ := htracked h
    obtain ⟨n,hn⟩ := mem_committed.mp hrow
    exact not_spent_later ht ⟨n,row,hn,rfl,hused⟩ hlater hr

/-- Every change is committed before its code has expired. -/
def ChangesInTime (d : Deployment) (env : Environment) (db : Database authSchema) : Prop :=
  ∀ a a' i c record userId, Reached d env db a → Redeeming a i record userId →
    authMachine.step a (.effect i c)=some a' → a.shared.env.clock≤record.expiresAt

/-- The next effect of a request is a commit. -/
def committing : Option (Option (Action Served)) → Bool
  | some (some (.call (.sql .commit) _)) => true
  | _ => false

/-- The lookup of a request returned the code. -/
def looks (i : ℕ) (record : PasswordResetToken) : Event authSignature → Bool
  | ⟨pid,.sql (.selectForUpdate .passwordResetTokens _),reply⟩ => pid=i && reply=[record]
  | _ => false

/-- The request has changed the password of the given row. -/
def rewrites (i : ℕ) (user : User) : Event authSignature → Bool
  | ⟨pid,.sql (.update .users q f),_⟩ =>
    pid=i && q user && (f user).passwordHash≠user.passwordHash
  | _ => false

/-- The decidable check gives a redeeming request. -/
theorem redeeming_of_check {sys : AuthSystem} {i : ℕ} {record : PasswordResetToken} {user : User}
    (hcommit : committing sys.procs[i]?=true) (hlooks : sys.history.any (looks i record)=true)
    (hrewrites : sys.history.any (rewrites i user)=true) : Redeeming sys i record user.id := by
  refine ⟨?_,?_,?_⟩
  · unfold committing at hcommit
    split at hcommit
    · rename_i k hk
      exact ⟨k,hk⟩
    · cases hcommit
  · obtain ⟨e,he,hlook⟩ := List.any_eq_true.mp hlooks
    unfold looks at hlook
    split at hlook
    · rename_i pid q reply
      simp only [Bool.and_eq_true,decide_eq_true_eq] at hlook
      obtain ⟨rfl,rfl⟩ := hlook
      exact ⟨q,he⟩
    · cases hlook
  · obtain ⟨e,he,hrewrite⟩ := List.any_eq_true.mp hrewrites
    refine ⟨e,he,?_⟩
    unfold rewrites at hrewrite
    split at hrewrite
    · rename_i pid q f n
      simp only [Bool.and_eq_true,decide_eq_true_eq] at hrewrite
      exact ⟨hrewrite.1.1,user,rfl,hrewrite.1.2,hrewrite.2⟩
    · cases hrewrite

/-- The code that the first request of the sample account inserts. -/
def sampleRecord : PasswordResetToken :=
  ⟨⟨10⟩,⟨1⟩,hashToken sampleDeployment "000000",some "1.2.3.4",some "<none>",
    seconds 3900,none⟩

/-- A reset of the sample account that reads the clock when its code expires
and commits a microsecond later. -/
def sampleLateReset : List Directive :=
  [.start (fromClient (.requestReset "a@b")),.steps 0 12,.finish 0,
    .start (fromClient (.resetPassword "a@b" "000000" "password2")),.steps 1 7,
    .choose 1 (seconds 900),.steps 1 12,.choose 1 1,.steps 1 2]

/-- The sample run changes a password after its code had run out. -/
theorem changes_not_in_time : ¬ChangesInTime sampleDeployment sampleEnvironment
    (sampleDatabase [sampleUser] [] []) := by
  have hrun : (follow sampleDeployment (fun _ _ => true) sampleEnvironment
      (sampleDatabase [sampleUser] [] []) sampleLateReset).any (fun sys =>
        committing sys.procs[1]? && sys.history.any (looks 1 sampleRecord) &&
        sys.history.any (rewrites 1 sampleUser) && (authMachine.step sys (.effect 1 0)).isSome &&
        decide (sampleRecord.expiresAt<sys.shared.env.clock))=true := by
    decide +kernel
  obtain ⟨sys,hsys,hall⟩ := (Option.any_eq_true _ _).mp hrun
  simp only [Bool.and_eq_true,decide_eq_true_eq] at hall
  obtain ⟨⟨⟨⟨hcommit,hlooks⟩,hrewrites⟩,hstep⟩,hlate⟩ := hall
  obtain ⟨next,hnext⟩ := Option.isSome_iff_exists.mp hstep
  intro h
  have hle := h sys next 1 0 sampleRecord ⟨1⟩ (reached_of_follow hsys)
    (redeeming_of_check hcommit hlooks hrewrites) hnext
  exact absurd hle (Nat.not_le_of_lt hlate)

/-- A run in which the second request redeems the sample code. -/
theorem codes_change_one_password_sample : ∃ a, Redeeming a 1 sampleRecord ⟨1⟩ ∧
    Decided a.history 1 sampleRecord := by
  have hrun : (follow sampleDeployment (fun _ _ => true) sampleEnvironment
      (sampleDatabase [sampleUser] [] []) sampleLateReset).any (fun sys =>
        committing sys.procs[1]? && sys.history.any (looks 1 sampleRecord) &&
        sys.history.any (rewrites 1 sampleUser))=true := by
    decide +kernel
  obtain ⟨sys,hsys,hall⟩ := (Option.any_eq_true _ _).mp hrun
  simp only [Bool.and_eq_true] at hall
  have hr := redeeming_of_check hall.1.1 hall.1.2 hall.2
  exact ⟨sys,hr,(codes_change_one_password .nil).decided sys 1 sampleRecord ⟨1⟩
    (reached_of_follow hsys) hr⟩

end Changes

end BackendPlatform.ResetCodes
