import BackendPlatform.ServerRuns
import Mathlib.Data.List.Pairwise

/-!
# Sound states of the server

Every inserted row carries an identifier that its own request has drawn,
updates keep the columns of keys and unique constraints, and every Redis key
holds a value of its own kind. All requests keep to this contract, so rows
stay unique and draws stay unused in every state a run reaches.
-/

set_option autoImplicit false

namespace BackendPlatform.ReachableStates

open ProgramTrees TransactionalTables ExpiringStore
open AuthRecords AuthEffects AuthRepositories AuthServices AuthFlows AuthFootprints ServerRuns

section Contract

/-- Both rows agree in the columns of the primary key and of every unique
constraint. -/
def SameIdentity : (t : Table) → Row t → Row t → Prop
  | .users,a,b => a.id=b.id ∧ a.email=b.email
  | .refreshTokens,a,b => a.jti=b.jti
  | .userSessions,a,b => a.id=b.id
  | .twoFactorSecrets,a,b => a.id=b.id ∧ a.userId=b.userId
  | .backupCodes,a,b => a.id=b.id
  | .passwordResetTokens,a,b => a.id=b.id ∧ a.tokenHash=b.tokenHash
  | .auditEvents,_,_ => True

/-- The identifier of a row is a draw below a bound. -/
def Drawn (bound : ℕ) : (t : Table) → Row t → Prop
  | .users,r => r.id.int<bound
  | .refreshTokens,r => r.jti.int<bound
  | .userSessions,r => r.id.int<bound
  | .twoFactorSecrets,r => r.id.int<bound
  | .backupCodes,r => r.id.int<bound
  | .passwordResetTokens,r => r.id.int<bound
  | .auditEvents,_ => True

/-- A value of the kind that belongs to a key. -/
def Suits : RedisKey → RedisValue → Prop
  | .bruteForceFail _ _,.number _ => True
  | .bruteForceLock _ _,.text _ => True
  | .accessSessionRevoked _,.text _ => True
  | .loginChallenge _,.challenge _ => True
  | _,_ => False

/-- What a request may do while its own draws are below a bound. -/
def moves (bound : ℕ) : (op : Effect) → op.Reply → ℕ → Prop
  | .external .draw,n,bound' => bound'=n+1
  | .external (.redisSet key value _),_,bound' => Suits key value ∧ bound'=bound
  | .external (.redisIncr key),_,bound' => Suits key (.number 1) ∧ bound'=bound
  | .sql (.insert t row),_,bound' => Drawn bound t row ∧ bound'=bound
  | .sql (.update t _ f),_,bound' => (∀ r, SameIdentity t (f r) r) ∧ bound'=bound
  | _,_,bound' => bound'=bound

/-- A draw is not below earlier ones. -/
def offers (bound : ℕ) : (op : Effect) → op.Reply → Prop
  | .external .draw,n => bound≤n
  | _,_ => True

/-- The contract of the requests. -/
def contract : Protocol authSignature ℕ := ⟨moves,offers⟩

/-- The action keeps to the contract wherever it starts. -/
def Tidy {α : Type} (p : Action α) : Prop :=
  ∀ bound, p.Follows contract bound fun bound' _ => bound ≤ bound'

/-- An access the contract says nothing about. -/
abbrev Plain : Access → Prop
  | .draw | .insert _ | .update _ | .redisWrite _ => False
  | _ => True

instance (a : Access) : Decidable (Plain a) :=
  match a with
  | .draw | .insert _ | .update _ | .redisWrite _ => instDecidableFalse
  | .clock | .random | .sign | .mail | .observe => instDecidableTrue
  | .redisRead _ | .select _ | .lock _ | .delete _ | .commit | .rollback => instDecidableTrue

variable {α β : Type} {p : Action α} {fp : List Access}

theorem moves_plain {op : Effect} (hop : Uses fp op) (hfp : ∀ a∈fp,Plain a) (bound : ℕ)
    (r : op.Reply) : moves bound op r bound := by
  have hno : ∀ a∈accesses op,Plain a := fun a ha => hfp a (hop a ha)
  unfold moves
  split
  · exact (hno .draw (by simp [accesses])).elim
  · exact (hno _ (List.mem_singleton_self _)).elim
  · exact (hno _ (List.mem_singleton_self _)).elim
  · exact (hno _ (List.mem_singleton_self _)).elim
  · exact (hno _ (List.mem_singleton_self _)).elim
  · rfl

theorem follows_plain (hp : Inside p fp) (hfp : ∀ a∈fp,Plain a) (bound : ℕ) :
    p.Follows contract bound fun bound' _ => bound'=bound :=
  Program.Follows.of_within hp fun _ r hop => moves_plain hop hfp bound r

theorem tidy_plain (hp : Inside p fp) (hfp : ∀ a∈fp,Plain a) : Tidy p :=
  fun bound => (follows_plain hp hfp bound).mono fun _ _ h => Nat.le_of_eq h.symm

@[simp] theorem tidy_pure (a : α) : Tidy (.pure a : Action α) := fun _ => Nat.le_refl _

@[simp] theorem tidy_raise (e : Failure) : Tidy (.raise e : Action α) := fun _ => Nat.le_refl _

theorem tidy_bind {f : α → Action β} (hp : Tidy p) (hf : ∀ a, Tidy (f a)) : Tidy (p.bind f) := by
  intro bound
  refine (hp bound).bind (fun bound' a h => ?_) fun _ _ h => h
  exact (hf a bound').mono fun _ _ h' => h.trans h'

theorem tidy_handle {h : Failure → Action α} (hp : Tidy p) (hh : ∀ e, Tidy (h e)) :
    Tidy (p.handle h) := by
  intro bound
  refine (hp bound).handle (fun _ _ hb => hb) fun bound' e hb => ?_
  exact (hh e bound').mono fun _ _ h' => hb.trans h'

@[simp] theorem tidy_ite {c : Prop} [Decidable c] {q : Action α} :
    Tidy (if c then p else q) ↔ (c → Tidy p) ∧ (¬c → Tidy q) := by
  split <;> simp [*]

theorem tidy_draw : Tidy draw := fun _ n hn => ⟨n+1,rfl,Nat.le_succ_of_le hn⟩

theorem tidy_uuid4 : Tidy uuid4 := tidy_bind tidy_draw fun _ => tidy_pure _

theorem tidy_redisSet {key : RedisKey} {value : RedisValue} (expiry : ℕ) (h : Suits key value) :
    Tidy (redisSet key value expiry) := by
  unfold redisSet
  rw [tidy_ite]
  exact ⟨fun _ => tidy_raise _,fun _ bound _ _ => ⟨bound,⟨h,rfl⟩,Nat.le_refl _⟩⟩

theorem tidy_redisDelete (keys : List RedisKey) : Tidy (redisDelete keys) :=
  fun bound _ _ => ⟨bound,rfl,Nat.le_refl _⟩

theorem tidy_redisExpire (key : RedisKey) (expiry : ℕ) : Tidy (redisExpire key expiry) :=
  fun bound _ _ => ⟨bound,rfl,Nat.le_refl _⟩

theorem tidy_redisIncr {key : RedisKey} (h : Suits key (.number 1)) : Tidy (redisIncr key) := by
  intro bound n _
  refine ⟨bound,⟨h,rfl⟩,?_⟩
  cases n <;> exact Nat.le_refl _

/-- An insertion keeps to the contract if the identifier has been drawn. -/
theorem follows_insertRow {t : Table} {row : Row t} {bound : ℕ} (h : Drawn bound t row) :
    (insertRow t row).Follows contract bound fun bound' _ => bound ≤ bound' := by
  intro o _
  refine ⟨bound,⟨h,rfl⟩,?_⟩
  cases o <;> exact Nat.le_refl _

theorem tidy_updateRows (t : Table) (q : Row t → Bool) {f : Row t → Row t}
    (h : ∀ r, SameIdentity t (f r) r) : Tidy (updateRows t q f) :=
  fun bound _ _ => ⟨bound,⟨h,rfl⟩,Nat.le_refl _⟩

theorem tidy_flushUpdate (t : Table) (q : Row t → Bool) {f : Row t → Row t}
    (h : ∀ r, SameIdentity t (f r) r) : Tidy (flushUpdate t q f) := by
  refine tidy_bind (tidy_updateRows t q h) fun n => ?_
  simp

/-- A row inserted under an identifier drawn right before. -/
theorem tidy_fresh {f : UUID → Action β} (h : ∀ id bound, id.int<bound →
    (f id).Follows contract bound fun bound' _ => bound ≤ bound') : Tidy (uuid4.bind f) := by
  intro bound n hn
  refine ⟨n+1,rfl,?_⟩
  exact (h ⟨n⟩ (n+1) (Nat.lt_succ_self n)).mono fun _ _ h' =>
    (Nat.le_succ_of_le hn).trans h'

end Contract

section Services

open BruteForceProtectionService JWTService RefreshTokenService TwoFactorService

theorem tidy_utcNow : Tidy utcNow := tidy_plain inside_utcNow (by decide)

theorem tidy_commit : Tidy commit := tidy_plain inside_commit (by decide)

theorem tidy_load (q : User → Bool) : Tidy (UserRepository.load q) :=
  tidy_plain (inside_load q) (by decide)

theorem tidy_assertNotLocked (d : Deployment) (scope : Scope) (identifier : String) :
    Tidy (assertNotLocked d scope identifier) :=
  tidy_plain (inside_assertNotLocked d scope identifier) (by decide)

theorem tidy_logEvent (d : Deployment) (eventType outcome : String) (userId : Option UUID)
    (ip ua : Option String) (payload : List (String×PyValue)) :
    Tidy (AuditService.logEvent d eventType outcome userId userId ip ua payload) :=
  fun _ => follows_insertRow trivial

theorem tidy_recordFailure (d : Deployment) (scope : Scope) (identifier : String) :
    Tidy (recordFailure d scope identifier) := by
  refine tidy_bind (tidy_redisIncr trivial) fun attempts => ?_
  have hlock : Tidy (if (policy d.settings scope).maxAttempts≤attempts then
      (redisSet (lockKey d scope identifier) (.text "1")
        (policy d.settings scope).lockSeconds).bind fun _ =>
          (redisDelete [failKey d scope identifier]).bind fun _ => .pure attempts
      else .pure attempts) := by
    rw [tidy_ite]
    refine ⟨fun _ => tidy_bind (tidy_redisSet _ trivial) fun _ => ?_,fun _ => tidy_pure _⟩
    exact tidy_bind (tidy_redisDelete _) fun _ => tidy_pure _
  simp only [Program.monad_bind,Program.monad_pure]
  rw [tidy_ite]
  exact ⟨fun _ => tidy_bind (tidy_redisExpire _ _) fun _ => hlock,fun _ => hlock⟩

theorem tidy_clearFailures (d : Deployment) (scope : Scope) (identifier : String) :
    Tidy (clearFailures d scope identifier) := tidy_redisDelete _

theorem tidy_markAccessSessionRevoked (d : Deployment) (sessionId : UUID) :
    Tidy (markAccessSessionRevoked d sessionId) := tidy_redisSet _ trivial

theorem tidy_markAccessSessionsRevoked (d : Deployment) (sessionIds : List UUID) :
    Tidy (markAccessSessionsRevoked d sessionIds) := by
  induction sessionIds with
  | nil => exact tidy_pure _
  | cons sessionId rest ih => exact tidy_bind (tidy_markAccessSessionRevoked d sessionId) fun _ => ih

theorem tidy_hash (text : String) : Tidy (PasswordService.hash text) :=
  tidy_bind tidy_draw fun _ => tidy_pure _

theorem tidy_hashPassword (d : Deployment) (password : String) :
    Tidy (PasswordService.hashPassword d password) := by
  have hpolicy : Tidy (PasswordService.validatePasswordPolicy d password) := by
    simp [PasswordService.validatePasswordPolicy]
  exact tidy_bind hpolicy fun _ => tidy_hash password

theorem tidy_issueAccessToken (d : Deployment) (subject sessionId : UUID) :
    Tidy (issueAccessToken d subject sessionId) := by
  refine tidy_bind tidy_utcNow fun _ => tidy_bind tidy_uuid4 fun _ => ?_
  exact fun bound _ _ => ⟨bound,rfl,Nat.le_refl _⟩

theorem tidy_revokeTokensWhere (q : RefreshToken → Bool) (reason : String) :
    Tidy (RefreshTokenRepository.revokeWhere q reason) :=
  tidy_bind tidy_utcNow fun _ => tidy_bind (tidy_updateRows _ _ fun _ => rfl) fun _ => tidy_pure _

theorem tidy_revokeSessionsWhere (q : UserSession → Bool) :
    Tidy (SessionRepository.revokeWhere q) :=
  tidy_bind tidy_utcNow fun _ => tidy_bind (tidy_updateRows _ _ fun _ => rfl) fun _ => tidy_pure _

theorem tidy_touchFamily (familyId : UUID) : Tidy (SessionRepository.touchFamily familyId) :=
  tidy_bind tidy_utcNow fun _ => tidy_bind (tidy_updateRows _ _ fun _ => rfl) fun _ => tidy_pure _

theorem tidy_createSession (userId familyId : UUID) (ip ua : Option String) :
    Tidy (SessionRepository.create userId familyId ip ua) := by
  refine tidy_fresh fun id bound hid => ?_
  have hdrawn : Drawn bound .userSessions ⟨id,userId,familyId,ip,ua,none,none⟩ := hid
  exact (follows_insertRow hdrawn).bind (fun _ _ h => h) fun _ _ h => h

/-- A new refresh token is inserted under an identifier drawn before. -/
theorem follows_newToken {β : Type} (d : Deployment) (userId sessionId familyId : UUID)
    {jti : UUID} {bound : ℕ} (hjti : jti.int < bound) (row : RawToken×Instant → RefreshToken)
    (hrow : ∀ r, (row r).jti=jti) {k : RawToken×Instant → Action β} (hk : ∀ r, Tidy (k r)) :
    ((issueRefreshToken d userId sessionId familyId jti).bind fun r =>
      (RefreshTokenRepository.create (row r)).bind fun _ => k r).Follows contract bound
        fun bound' _ => bound ≤ bound' := by
  refine (follows_plain (inside_issueRefreshToken d userId sessionId familyId jti) (by decide)
    bound).bind ?_ fun _ _ h => Nat.le_of_eq h.symm
  intro bound' r hb
  rw [hb]
  have hdrawn : Drawn bound .refreshTokens (row r) := by
    show (row r).jti.int<bound
    rwa [hrow r]
  refine (follows_insertRow hdrawn).bind (fun bound' _ h => ?_) fun _ _ h => h
  exact (hk r bound').mono fun _ _ h' => h.trans h'

theorem tidy_issueForUser (d : Deployment) (userId : UUID) (ip ua : Option String) :
    Tidy (issueForUser d userId ip ua) := by
  refine tidy_bind tidy_uuid4 fun familyId => ?_
  refine tidy_bind (tidy_createSession userId familyId ip ua) fun session => ?_
  refine tidy_fresh fun jti bound hjti => ?_
  exact follows_newToken d userId session.id familyId hjti
    (fun r => ⟨userId,jti,familyId,none,hashRefreshToken d r.1,r.2,none,none,none,none,ip,ua⟩)
    (fun _ => rfl) fun r => tidy_bind (tidy_issueAccessToken d userId session.id)
      fun _ => tidy_pure _

theorem tidy_markRotated (token : RefreshToken) (jti : UUID) :
    Tidy (RefreshTokenRepository.markRotated token jti) :=
  tidy_bind tidy_utcNow fun _ => tidy_flushUpdate _ _ fun _ => rfl

theorem tidy_exchange (d : Deployment) (record : RefreshToken) (ids : RefreshIds)
    (ip ua : Option String) : Tidy (exchange d record ids ip ua) := by
  refine tidy_fresh fun jti bound hjti => ?_
  refine (follows_plain (inside_issueRefreshToken d ids.userId ids.sessionId ids.familyId jti)
    (by decide) bound).bind ?_ fun _ _ h => Nat.le_of_eq h.symm
  intro bound' r hb
  rw [hb]
  refine (tidy_markRotated record jti bound).bind (fun bound₁ _ h₁ => ?_) fun _ _ h => h
  have hdrawn : Drawn bound₁ .refreshTokens ⟨ids.userId,jti,ids.familyId,some record.jti,
      hashRefreshToken d r.1,r.2,none,none,none,none,ip,ua⟩ := hjti.trans_le h₁
  refine (follows_insertRow hdrawn).bind (fun bound₂ _ h₂ => ?_) fun _ _ h => h₁.trans h
  have hrest : Tidy ((SessionRepository.touchFamily ids.familyId).bind fun _ =>
      (issueAccessToken d ids.userId ids.sessionId).bind fun access =>
        (.pure ⟨access.1,r.1,access.2,ids.familyId,ids.sessionId⟩ : Action TokenPair)) :=
    tidy_bind (tidy_touchFamily _) fun _ => tidy_bind (tidy_issueAccessToken _ _ _)
      fun _ => tidy_pure _
  exact (hrest bound₂).mono fun _ _ h => (h₁.trans h₂).trans h

theorem tidy_rotate (d : Deployment) (token : RawToken) (ip ua : Option String) :
    Tidy (rotate d token ip ua) := by
  refine tidy_bind (tidy_plain (inside_decodeAndValidate d token .refresh) (by decide))
    fun claims => ?_
  refine tidy_bind (tidy_plain (inside_refreshIds claims) (by decide)) fun ids => ?_
  refine tidy_bind (tidy_plain (inside_getByJtiForUpdate ids.tokenJti) (by decide)) fun found => ?_
  cases found with
  | none => exact tidy_raise _
  | some record =>
    simp only [Program.monad_throw,Program.monad_bind,Program.raise_bind,tidy_ite,tidy_raise,implies_true,true_and]
    intro _ _
    refine tidy_bind (tidy_plain (inside_isFamilyActive _) (by decide)) fun active => ?_
    simp only [tidy_ite,tidy_raise,implies_true,true_and]
    intro _
    refine tidy_bind tidy_utcNow fun now => ?_
    simp only [tidy_ite,tidy_raise,implies_true,true_and]
    intro _
    refine ⟨fun _ => ?_,fun _ => tidy_exchange d record ids ip ua⟩
    exact tidy_bind (tidy_revokeTokensWhere _ _) fun _ =>
      tidy_bind (tidy_revokeSessionsWhere _) fun _ => tidy_raise _

theorem tidy_revoke (d : Deployment) (token : RawToken) (revokeFamily : Bool) (reason : String) :
    Tidy (revoke d token revokeFamily reason) := by
  refine tidy_bind (tidy_plain (inside_decodeAndValidate d token .refresh) (by decide))
    fun claims => ?_
  refine tidy_bind (tidy_plain (inside_refreshIds claims) (by decide)) fun ids => ?_
  refine tidy_bind (tidy_plain (inside_getByJtiForUpdate ids.tokenJti) (by decide)) fun found => ?_
  cases found with
  | none => exact tidy_pure _
  | some record =>
    simp only [Program.monad_throw,Program.monad_bind,Program.monad_pure,Program.raise_bind,tidy_ite,
      tidy_raise,implies_true,true_and]
    intro _ _ _
    refine ⟨fun _ => ?_,fun _ => tidy_bind tidy_utcNow fun _ => tidy_pure _⟩
    exact tidy_bind (tidy_revokeTokensWhere _ _) fun _ =>
      tidy_bind (tidy_revokeSessionsWhere _) fun _ => tidy_pure _

theorem tidy_flushRevocation (pending : Option PendingRevocation) :
    Tidy (flushRevocation pending) := by
  cases pending with
  | none => exact tidy_pure _
  | some pending => exact tidy_flushUpdate _ _ fun _ => rfl

end Services

section Factors

open TwoFactorService TwoFactorRepository

theorem tidy_verifyForLogin (d : Deployment) (user : LoadedUser) (totp backup : Option String) :
    Tidy (verifyForLogin d user totp backup) :=
  tidy_plain (inside_verifyForLogin d user totp backup) (by decide)

theorem tidy_flushFactor (factor : PendingFactor) : Tidy (flushFactor factor) := by
  cases factor with
  | lastUsedTimecode => exact tidy_flushUpdate _ _ fun _ => ⟨rfl,rfl⟩
  | backupCodeUsed => exact tidy_flushUpdate _ _ fun _ => rfl

theorem tidy_upsertSecret (user : LoadedUser) (secret : EncryptedSecret) :
    Tidy (upsertSecret user secret) := by
  refine tidy_bind (tidy_plain (inside_getSecret user) (by decide)) fun found => ?_
  cases found with
  | none => exact tidy_fresh fun id bound hid => follows_insertRow hid
  | some record => exact tidy_flushUpdate _ _ fun _ => ⟨rfl,rfl⟩

theorem tidy_hashBackupCodes (codes : List String) : Tidy (hashBackupCodes codes) := by
  induction codes with
  | nil => exact tidy_pure _
  | cons code rest ih => exact tidy_bind (tidy_hash code) fun _ => tidy_bind ih fun _ => tidy_pure _

theorem tidy_insertBackupCodes (userId : UUID) (hashes : List PasswordHash) :
    Tidy (insertBackupCodes userId hashes) := by
  induction hashes with
  | nil => exact tidy_pure _
  | cons codeHash rest ih =>
    refine tidy_fresh fun id bound hid => ?_
    have hdrawn : Drawn bound .backupCodes ⟨id,userId,codeHash,none⟩ := hid
    refine (follows_insertRow hdrawn).bind (fun bound' _ hb => ?_) fun _ _ h => h
    exact (ih bound').mono fun _ _ h => hb.trans h

theorem tidy_deleteRows (t : Table) (q : Row t → Bool) : Tidy (deleteRows t q) :=
  fun bound _ _ => ⟨bound,rfl,Nat.le_refl _⟩

theorem tidy_replaceBackupCodes (userId : UUID) (hashes : List PasswordHash) :
    Tidy (replaceBackupCodes userId hashes) :=
  tidy_bind (tidy_deleteRows _ _) fun _ => tidy_insertBackupCodes userId hashes

theorem tidy_createSetup (d : Deployment) (user : LoadedUser) : Tidy (createSetup d user) := by
  simp only [createSetup,Program.monad_throw,Program.monad_bind,Program.monad_pure,Program.raise_bind,
    tidy_ite,tidy_raise,implies_true,true_and]
  intro _
  refine tidy_bind tidy_draw fun secret => ?_
  refine tidy_bind (tidy_upsertSecret user _) fun _ => ?_
  refine tidy_bind (tidy_plain (inside_generatePlainBackupCodes 10) (by decide)) fun codes => ?_
  refine tidy_bind (tidy_hashBackupCodes codes) fun hashes => ?_
  exact tidy_bind (tidy_replaceBackupCodes _ hashes) fun _ => tidy_pure _

theorem tidy_flushTwoFactorEnabled (user : LoadedUser) (enabled : Bool) :
    Tidy (UserRepository.flushTwoFactorEnabled user enabled) :=
  tidy_flushUpdate _ _ fun _ => ⟨rfl,rfl⟩

theorem tidy_enable (d : Deployment) (user : LoadedUser) (code : String) :
    Tidy (enable d user code) := by
  simp only [enable,Program.monad_throw,Program.monad_bind,Program.raise_bind,tidy_ite,tidy_raise,
    implies_true,true_and]
  intro _
  refine tidy_bind (tidy_plain (inside_getSecretForUpdate user) (by decide)) fun found => ?_
  cases found with
  | none => exact tidy_raise _
  | some record =>
    refine tidy_bind (tidy_plain (inside_verifyTotpCode d _ code) (by decide)) fun result => ?_
    simp only [tidy_ite,tidy_raise,implies_true,true_and]
    intro _
    refine tidy_bind (tidy_plain (inside_observe _) (by decide)) fun _ => ?_
    refine tidy_bind tidy_utcNow fun now => ?_
    exact tidy_bind (tidy_flushTwoFactorEnabled user true) fun _ =>
      tidy_flushUpdate _ _ fun _ => ⟨rfl,rfl⟩

theorem tidy_disable (d : Deployment) (user : LoadedUser) (totp backup : Option String) :
    Tidy (disable d user totp backup) := by
  refine tidy_bind (tidy_verifyForLogin d user totp backup) fun factor => ?_
  refine tidy_bind (tidy_flushFactor factor) fun _ => ?_
  refine tidy_bind ?_ fun _ => tidy_flushTwoFactorEnabled user false
  exact tidy_bind (tidy_deleteRows _ _) fun _ => tidy_bind (tidy_deleteRows _ _) fun _ =>
    tidy_pure _

theorem tidy_regenerateBackupCodes (d : Deployment) (user : LoadedUser)
    (totp backup : Option String) : Tidy (regenerateBackupCodes d user totp backup) := by
  refine tidy_bind (tidy_verifyForLogin d user totp backup) fun factor => ?_
  refine tidy_bind (tidy_plain (inside_generatePlainBackupCodes 10) (by decide)) fun codes => ?_
  refine tidy_bind (tidy_hashBackupCodes codes) fun hashes => ?_
  refine tidy_bind (tidy_flushFactor factor) fun _ => ?_
  exact tidy_bind (tidy_replaceBackupCodes _ hashes) fun _ => tidy_pure _

end Factors

section Requests

open BruteForceProtectionService RefreshTokenService AuthService PasswordResetService Endpoints

variable (d : Deployment) (ip ua : Option String)

theorem tidy_refuse {α : Type} (userId : Option UUID) (payload : List (String×PyValue))
    (failure : Failure) : Tidy (refuse d userId ip ua payload failure : Action α) :=
  tidy_bind (tidy_logEvent _ _ _ _ _ _ _) fun _ => tidy_bind tidy_commit fun _ => tidy_raise _

theorem tidy_rejectPassword (user : Option LoadedUser) (email identifier : String) :
    Tidy (rejectPassword d user email identifier ip ua) := by
  refine tidy_bind (tidy_recordFailure _ _ _) fun _ => ?_
  refine tidy_bind ?_ fun blocked => ?_
  · cases user with
    | none => exact tidy_pure _
    | some user =>
      refine tidy_bind (tidy_recordFailure _ _ _) fun attempts => ?_
      simp only [Program.monad_bind,Program.monad_pure,tidy_ite,tidy_pure,implies_true,and_true]
      exact fun _ => tidy_bind (tidy_flushUpdate _ _ fun _ => ⟨rfl,rfl⟩) fun _ => tidy_pure _
  · refine tidy_bind (tidy_logEvent _ _ _ _ _ _ _) fun _ => tidy_bind tidy_commit fun _ => ?_
    cases blocked <;> exact tidy_raise _

theorem tidy_createLoginChallenge (userId : UUID) : Tidy (createLoginChallenge d userId ip) :=
  tidy_bind tidy_uuid4 fun _ => tidy_bind (tidy_redisSet _ trivial) fun _ => tidy_pure _

theorem tidy_grantAccess (user : LoadedUser) (email identifier : String) :
    Tidy (grantAccess d user email identifier ip ua) := by
  refine tidy_bind (tidy_clearFailures _ _ _) fun _ => ?_
  refine tidy_bind (tidy_clearFailures _ _ _) fun _ => ?_
  have hissue : Tidy ((issueForUser d user.row.id ip ua).bind fun pair =>
      (AuditService.logEvent d "auth.login.success" "success" (some user.row.id)
        (some user.row.id) ip ua []).bind
        fun _ => commit.bind fun _ => (.pure ⟨false,none,some pair⟩ : Action LoginStepResult)) :=
    tidy_bind (tidy_issueForUser _ _ _ _) fun _ => tidy_bind (tidy_logEvent _ _ _ _ _ _ _)
      fun _ => tidy_bind tidy_commit fun _ => tidy_pure _
  simp only [Program.monad_bind,Program.monad_pure]
  rw [tidy_ite]
  exact ⟨fun _ => tidy_bind (tidy_createLoginChallenge d ip _) fun _ => tidy_pure _,fun _ => hissue⟩

theorem tidy_login (email password : String) : Tidy (login d email password ip ua) := by
  refine tidy_bind (tidy_load _) fun found => ?_
  cases found with
  | none =>
    exact tidy_bind (tidy_assertNotLocked _ _ _) fun _ => tidy_rejectPassword d ip ua none _ _
  | some user =>
    simp only [Program.monad_throw,Program.monad_bind,Program.raise_bind,tidy_ite,tidy_raise,implies_true,true_and]
    intro _
    refine tidy_bind (tidy_assertNotLocked _ _ _) fun _ => ?_
    refine tidy_bind (tidy_assertNotLocked _ _ _) fun _ => ?_
    simp only [tidy_ite]
    exact ⟨fun _ => tidy_rejectPassword d ip ua _ _ _,fun _ =>
      ⟨fun _ => tidy_refuse d ip ua _ _ _,fun _ => tidy_grantAccess d ip ua user _ _⟩⟩

theorem tidy_redeemChallenge (user : LoadedUser) (factor : TwoFactorService.PendingFactor)
    (challengeId identifier : String) :
    Tidy (redeemChallenge d user factor challengeId identifier ip ua) := by
  refine tidy_bind (tidy_clearFailures _ _ _) fun _ => ?_
  refine tidy_bind (tidy_redisDelete _) fun _ => ?_
  refine tidy_bind (tidy_flushFactor factor) fun _ => ?_
  exact tidy_bind (tidy_issueForUser _ _ _ _) fun _ => tidy_bind (tidy_logEvent _ _ _ _ _ _ _)
    fun _ => tidy_bind tidy_commit fun _ => tidy_pure _

theorem tidy_verifyLoginChallenge (challengeId : String) (totp backup : Option String) :
    Tidy (verifyLoginChallenge d challengeId totp backup ip ua) := by
  refine tidy_bind (tidy_assertNotLocked _ _ _) fun _ => ?_
  refine tidy_bind (tidy_plain (inside_getLoginChallenge _) (by decide)) fun found => ?_
  cases found with
  | none => exact tidy_raise _
  | some challenge =>
    simp only [Program.monad_throw,Program.monad_bind]
    split
    · exact tidy_bind (tidy_recordFailure _ _ _) fun _ => tidy_bind (tidy_redisDelete _)
        fun _ => tidy_refuse d ip ua _ _ _
    · split
      · exact tidy_raise _
      · refine tidy_bind (tidy_load _) fun found => ?_
        cases found with
        | none => exact tidy_raise _
        | some user =>
          dsimp only
          rw [tidy_ite]
          refine ⟨fun _ => tidy_bind (tidy_redisDelete _) fun _ => tidy_refuse d ip ua _ _ _,
            fun _ => ?_⟩
          refine tidy_bind (tidy_handle (tidy_verifyForLogin d user totp backup) fun e => ?_)
            fun factor => tidy_redeemChallenge d ip ua user factor _ _
          simp only [Program.monad_throw,Program.monad_bind]
          rw [tidy_ite]
          exact ⟨fun _ => tidy_bind (tidy_recordFailure _ _ _) fun _ => tidy_refuse d ip ua _ _ _,
            fun _ => tidy_raise _⟩

theorem tidy_refreshTokens (token : RawToken) : Tidy (refreshTokens d token ip ua) := by
  refine tidy_bind (tidy_handle (tidy_rotate d token ip ua) fun e => ?_) fun pair =>
    tidy_bind (tidy_logEvent _ _ _ _ _ _ _) fun _ => tidy_bind tidy_commit fun _ => tidy_pure _
  unfold refreshFailed
  split
  · exact tidy_bind (tidy_markAccessSessionRevoked _ _) fun _ =>
      tidy_bind (tidy_logEvent _ _ _ _ _ _ _) fun _ => tidy_bind tidy_commit fun _ => tidy_raise _
  · exact tidy_bind (tidy_logEvent _ _ _ _ _ _ _) fun _ => tidy_bind tidy_commit
      fun _ => tidy_raise _
  · exact tidy_raise _

theorem tidy_revokeRefreshToken (token : RawToken) (revokeFamily : Bool) :
    Tidy (revokeRefreshToken d token revokeFamily ip ua) := by
  refine tidy_bind (tidy_revoke d token revokeFamily _) fun found => ?_
  rcases found with _|⟨revocation,pending⟩
  · exact tidy_bind (tidy_logEvent _ _ _ _ _ _ _) fun _ => tidy_commit
  · refine tidy_bind (tidy_markAccessSessionRevoked _ _) fun _ => ?_
    refine tidy_bind (tidy_flushRevocation pending) fun _ => ?_
    exact tidy_bind (tidy_logEvent _ _ _ _ _ _ _) fun _ => tidy_commit

theorem tidy_requestReset (email : String) : Tidy (requestReset d email ip ua) := by
  have hrollback : Tidy rollback := fun bound _ _ => ⟨bound,rfl,Nat.le_refl _⟩
  have hfail : ∀ user, Tidy (failDelivery user) := by
    intro user
    rw [failDelivery_eq]
    exact tidy_bind hrollback fun _ => tidy_raise _
  refine tidy_bind (tidy_load _) fun found => ?_
  cases found with
  | none => exact tidy_raise _
  | some user =>
    simp only [Program.monad_throw,Program.monad_bind,Program.monad_pure,Program.raise_bind,tidy_ite,
      tidy_raise,tidy_pure,implies_true,true_and]
    intro _ _
    refine tidy_bind (tidy_bind (fun bound _ _ => ⟨bound,rfl,Nat.le_refl _⟩) fun _ => tidy_pure _)
      fun code => ?_
    refine tidy_bind tidy_utcNow fun now => ?_
    refine tidy_bind (tidy_bind (tidy_updateRows _ _ fun _ => ⟨rfl,rfl⟩) fun _ => tidy_pure _)
      fun _ => ?_
    refine tidy_bind (tidy_fresh fun id bound hid => follows_insertRow hid) fun _ => ?_
    refine tidy_bind (fun bound _ _ => ⟨bound,rfl,Nat.le_refl _⟩) fun delivery => ?_
    split
    · exact tidy_bind (tidy_logEvent _ _ _ _ _ _ _) fun _ => tidy_bind tidy_commit
        fun _ => tidy_pure _
    · exact tidy_bind (tidy_bind hrollback fun _ => tidy_pure _) fun _ => hfail _
    · exact hfail _
    · exact hfail _
    · exact tidy_raise _

theorem tidy_refuseCode (identifier account : String) (user : Option LoadedUser) :
    Tidy (refuseCode d identifier account user) := by
  refine tidy_bind ?_ fun _ => tidy_raise _
  refine tidy_bind (tidy_recordFailure _ _ _) fun _ => ?_
  refine tidy_bind (tidy_recordFailure _ _ _) fun attempts => ?_
  cases user with
  | none => exact tidy_pure _
  | some user =>
    simp only [Program.monad_bind]
    rw [tidy_ite]
    exact ⟨fun _ => tidy_bind (tidy_flushUpdate _ _ fun _ => ⟨rfl,rfl⟩) fun _ => tidy_commit,
      fun _ => tidy_pure _⟩

theorem tidy_resetPassword (email code newPassword : String) :
    Tidy (resetPassword d email code newPassword ip ua) := by
  refine tidy_bind (tidy_assertNotLocked _ _ _) fun _ => ?_
  refine tidy_bind (tidy_assertNotLocked _ _ _) fun _ => ?_
  refine tidy_bind (tidy_load _) fun found => ?_
  cases found with
  | none => exact tidy_refuseCode d _ _ none
  | some user =>
    simp only [Program.monad_throw,Program.monad_bind,Program.raise_bind,tidy_ite,tidy_raise,implies_true,true_and]
    intro _
    refine tidy_bind (tidy_plain (inside_getActiveForUserByHash _ _) (by decide)) fun found => ?_
    cases found with
    | none => exact tidy_refuseCode d _ _ _
    | some record =>
      dsimp only
      rw [tidy_ite]
      refine ⟨fun _ => tidy_refuseCode d _ _ _,fun _ => tidy_bind tidy_utcNow fun now => ?_⟩
      rw [tidy_ite]
      refine ⟨fun _ => tidy_refuseCode d _ _ _,fun _ => ?_⟩
      refine tidy_bind (tidy_hashPassword d newPassword) fun _ => ?_
      refine tidy_bind (tidy_flushUpdate _ _ fun _ => ⟨rfl,rfl⟩) fun _ => ?_
      refine tidy_bind (tidy_flushUpdate _ _ fun _ => ⟨rfl,rfl⟩) fun _ => ?_
      refine tidy_bind (tidy_plain (inside_listActiveSessionIdsForUser _) (by decide)) fun _ => ?_
      refine tidy_bind (tidy_revokeTokensWhere _ _) fun _ => ?_
      refine tidy_bind (tidy_revokeSessionsWhere _) fun _ => ?_
      refine tidy_bind (tidy_markAccessSessionsRevoked d _) fun _ => ?_
      refine tidy_bind (tidy_clearFailures _ _ _) fun _ => ?_
      refine tidy_bind (tidy_clearFailures _ _ _) fun _ => ?_
      exact tidy_bind (tidy_logEvent _ _ _ _ _ _ _) fun _ => tidy_commit

theorem tidy_register (email password : String) : Tidy (register d email password ip ua) := by
  refine tidy_bind (tidy_load _) fun found => ?_
  simp only [Program.monad_throw,Program.monad_bind,Program.raise_bind,tidy_ite,tidy_raise,implies_true,true_and]
  intro _
  refine tidy_bind (tidy_hashPassword d password) fun passwordHash => ?_
  refine tidy_bind (tidy_fresh fun id bound hid => ?_) fun user => ?_
  · have hdrawn : Drawn bound .users ⟨id,d.lower email,passwordHash,true,false,false,false⟩ := hid
    exact (follows_insertRow hdrawn).bind (fun _ _ h => h) fun _ _ h => h
  · exact tidy_bind (tidy_logEvent _ _ _ _ _ _ _) fun _ => tidy_commit

theorem tidy_getCurrentUser (authorization : Authorization) :
    Tidy (getCurrentUser d authorization) :=
  tidy_plain (inside_getCurrentUser d authorization) (by decide)

theorem tidy_completed (eventType : String) (user : LoadedUser) :
    Tidy (completed d eventType user ip ua) :=
  tidy_bind (tidy_logEvent _ _ _ _ _ _ _) fun _ => tidy_commit

/-- Every request keeps to the contract. -/
theorem tidy_respond (client : ClientRequest) : Tidy (respond d client) := by
  obtain ⟨request,ip,ua⟩ := client
  cases request with
  | register email password => exact tidy_bind (tidy_register d ip ua _ _) fun _ => tidy_pure _
  | login email password => exact tidy_bind (tidy_login d ip ua _ _) fun _ => tidy_pure _
  | verifyLoginChallenge challengeId totp backup =>
    exact tidy_bind (tidy_verifyLoginChallenge d ip ua _ _ _) fun _ => tidy_pure _
  | refreshTokens token => exact tidy_bind (tidy_refreshTokens d ip ua _) fun _ => tidy_pure _
  | revokeRefreshToken token revokeFamily =>
    exact tidy_bind (tidy_revokeRefreshToken d ip ua _ _) fun _ => tidy_pure _
  | requestReset email => exact tidy_bind (tidy_requestReset d ip ua _) fun _ => tidy_pure _
  | resetPassword email code newPassword =>
    exact tidy_bind (tidy_resetPassword d ip ua _ _ _) fun _ => tidy_pure _
  | currentSession authorization =>
    exact tidy_bind (tidy_getCurrentUser d _) fun _ => tidy_pure _
  | setupTwoFactor authorization =>
    refine tidy_bind (tidy_bind (tidy_getCurrentUser d _) fun user => ?_) fun _ => tidy_pure _
    exact tidy_bind (tidy_createSetup d user) fun _ => tidy_bind (tidy_completed d ip ua _ user)
      fun _ => tidy_pure _
  | enableTwoFactor authorization totpCode =>
    refine tidy_bind (tidy_bind (tidy_getCurrentUser d _) fun user => ?_) fun _ => tidy_pure _
    exact tidy_bind (tidy_enable d user _) fun _ => tidy_completed d ip ua _ user
  | disableTwoFactor authorization password totp backup =>
    refine tidy_bind (tidy_bind (tidy_getCurrentUser d _) fun user => ?_) fun _ => tidy_pure _
    simp only [Program.monad_throw,Program.monad_bind,Program.raise_bind,tidy_ite,tidy_raise,implies_true,true_and]
    exact fun _ => tidy_bind (tidy_disable d user _ _) fun _ => tidy_completed d ip ua _ user
  | regenerateBackupCodes authorization totp backup =>
    refine tidy_bind (tidy_bind (tidy_getCurrentUser d _) fun user => ?_) fun _ => tidy_pure _
    exact tidy_bind (tidy_regenerateBackupCodes d user _ _) fun _ =>
      tidy_bind (tidy_completed d ip ua _ user) fun _ => tidy_pure _

end Requests

section Soundness

/-- Rows are unique and carry used draws, and every key holds a value of its
own kind. -/
structure Sound (env : Environment) (db : Database authSchema) : Prop where
  /-- Identifiers of rows have been drawn. -/
  drawn : ∀ t, ∀ r∈db t,Drawn env.draws t r
  /-- No unique constraint is violated. -/
  unique : ∀ t, (db t).Pairwise fun a b => conflict t a b=false
  /-- Redis values are of the kind of their key. -/
  suits : ∀ key entry, env.redis key=some entry → Suits key entry.value

theorem SameIdentity.drawn {t : Table} {a b : Row t} {bound : ℕ} (h : SameIdentity t a b)
    (hb : Drawn bound t b) : Drawn bound t a := by
  cases t <;> simp only [SameIdentity,Drawn] at h hb ⊢ <;> simp_all

theorem SameIdentity.conflict_left {t : Table} {a a' : Row t} (h : SameIdentity t a a')
    (b : Row t) : conflict t a b=conflict t a' b := by
  cases t <;> simp only [SameIdentity,conflict] at h ⊢ <;> simp_all

theorem SameIdentity.conflict_right {t : Table} {b b' : Row t} (h : SameIdentity t b b')
    (a : Row t) : conflict t a b=conflict t a b' := by
  cases t <;> simp only [SameIdentity,conflict] at h ⊢ <;> simp_all

theorem SameIdentity.refl : (t : Table) → (a : Row t) → SameIdentity t a a
  | .users,_ | .twoFactorSecrets,_ | .passwordResetTokens,_ => ⟨rfl,rfl⟩
  | .refreshTokens,_ | .userSessions,_ | .backupCodes,_ => rfl
  | .auditEvents,_ => trivial

theorem conflict_symm {t : Table} (a b : Row t) : conflict t a b=conflict t b a := by
  cases t <;> simp only [conflict] <;> grind

theorem Drawn.mono {t : Table} {r : Row t} {b b' : ℕ} (h : Drawn b t r) (hb : b ≤ b') :
    Drawn b' t r := by
  cases t <;> simp only [Drawn] at h ⊢ <;> omega

/-- Stored rows that a unique constraint forbids together are the same. -/
theorem eq_of_conflict {t : Table} {rows : List (Row t)} {a b : Row t}
    (hunique : rows.Pairwise fun a b => conflict t a b=false) (ha : a∈rows) (hb : b∈rows)
    (h : conflict t a b=true) : a=b := by
  by_contra hne
  have hsymm : Std.Symm fun a b : Row t => conflict t a b=false :=
    ⟨fun a b hab => (conflict_symm b a).trans hab⟩
  have hno := hunique.forall ha hb hne
  exact absurd (hno.symm.trans h) (by decide)

/-- A condition that no two rows can share picks a stored row alone. -/
theorem filter_length_eq_one {t : Table} {rows : List (Row t)} {q : Row t → Bool} {row : Row t}
    (hunique : rows.Pairwise fun a b => conflict t a b=false) (hrow : row∈rows)
    (hq : q row=true) (hapart : ∀ a b, q a=true → q b=true → conflict t a b=true) :
    (rows.filter q).length=1 := by
  induction rows with
  | nil => cases hrow
  | cons head tail ih =>
    obtain ⟨hhead,htail⟩ := List.pairwise_cons.mp hunique
    by_cases hqh : q head=true
    · have hnil : tail.filter q=[] := by
        refine List.filter_eq_nil_iff.mpr fun b hb hqb => ?_
        exact absurd ((hhead b hb).symm.trans (hapart head b hqh hqb)) (by decide)
      rw [List.filter_cons_of_pos hqh,hnil]
      rfl
    · rw [List.filter_cons_of_neg hqh]
      refine ih htail ((List.mem_cons.mp hrow).resolve_left ?_)
      rintro rfl
      exact hqh hq

variable {env env' : Environment} {db db' : Database authSchema}

/-- Later environments and tables with some of the rows stay sound. -/
theorem Sound.mono (h : Sound env db) (hdraws : env.draws ≤ env'.draws)
    (hredis : ∀ key entry, env'.redis key=some entry → Suits key entry.value)
    (hdb : ∀ t, (db' t).Sublist (db t)) : Sound env' db' :=
  ⟨fun t r hr => (h.drawn t r ((hdb t).subset hr)).mono hdraws,
    fun t => (h.unique t).sublist (hdb t),hredis⟩

/-- Another table content that is sound in itself. -/
theorem Sound.write (h : Sound env db) {t : Table} {rows : List (Row t)}
    (hdrawn : ∀ r∈rows,Drawn env.draws t r)
    (hunique : rows.Pairwise fun a b => conflict t a b=false) :
    Sound env (Function.update db t rows) := by
  refine ⟨fun u r hr => ?_,fun u => ?_,h.suits⟩
  · by_cases hu : u=t
    · subst hu
      rw [Function.update_self] at hr
      exact hdrawn r hr
    · rw [Function.update_of_ne hu] at hr
      exact h.drawn u r hr
  · by_cases hu : u=t
    · subst hu
      rwa [Function.update_self]
    · rw [Function.update_of_ne hu]
      exact h.unique u

/-- Assignments that keep identities keep the tables sound. -/
theorem Sound.assign (h : Sound env db) {t : Table} (f : Row t → Row t)
    (hf : ∀ r, SameIdentity t (f r) r) : Sound env (Function.update db t ((db t).map f)) := by
  refine h.write (fun r hr => ?_) ?_
  · obtain ⟨a,ha,rfl⟩ := List.mem_map.mp hr
    exact (hf a).drawn (h.drawn t a ha)
  · rw [List.pairwise_map]
    refine (h.unique t).imp fun {a b} hab => ?_
    rw [(hf a).conflict_left,(hf b).conflict_right,hab]

/-- A statement the contract allows keeps tables sound. -/
theorem sound_perform {bound bound' : ℕ} {stmt : Statement authSchema}
    {data : Transaction authSchema} (hwork : Sound env data.work)
    (hcommitted : Sound env data.committed) (hbound : bound ≤ env.draws)
    (hm : moves bound (.sql stmt) (Transaction.perform stmt data).1 bound') :
    Sound env (Transaction.perform stmt data).2.work ∧
      Sound env (Transaction.perform stmt data).2.committed ∧ bound'=bound := by
  cases stmt with
  | select t q => exact ⟨hwork,hcommitted,hm⟩
  | selectForUpdate t q => exact ⟨hwork,hcommitted,hm⟩
  | insert t row =>
    obtain ⟨hdrawn,hb⟩ : Drawn bound t row ∧ bound'=bound := hm
    refine ⟨?_,?_,hb⟩
    · simp only [Transaction.perform,Transaction.insertRow]
      split
      · split
        · exact hwork
        · rename_i hno
          refine hwork.write (fun r hr => ?_) ?_
          · obtain hr|hr := List.mem_append.mp hr
            · exact hwork.drawn t r hr
            · obtain rfl := List.mem_singleton.mp hr
              exact hdrawn.mono hbound
          · refine List.pairwise_append.mpr ⟨hwork.unique t,List.pairwise_singleton _ _,?_⟩
            intro a ha b hb
            obtain rfl := List.mem_singleton.mp hb
            rw [conflict_symm]
            have hno' := List.any_eq_false.mp (Bool.eq_false_iff.mpr hno) a ha
            exact Bool.eq_false_iff.mpr hno'
      · exact hwork
    · rw [Transaction.perform_committed data (by simp)]
      exact hcommitted
  | update t q f =>
    obtain ⟨hf,hb⟩ : (∀ r, SameIdentity t (f r) r) ∧ bound'=bound := hm
    refine ⟨hwork.assign _ fun r => ?_,hcommitted,hb⟩
    by_cases hq : q r=true
    · rw [if_pos hq]
      exact hf r
    · rw [if_neg hq]
      exact .refl t r
  | delete t q =>
    refine ⟨hwork.write (fun r hr => ?_) ?_,hcommitted,hm⟩
    · exact hwork.drawn t r (List.mem_of_mem_filter hr)
    · exact (hwork.unique t).filter _
  | commit => exact ⟨hwork,hwork,hm⟩
  | rollback => exact ⟨hcommitted,hcommitted,hm⟩

/-- Redis commands the contract allows keep the kinds of values. -/
theorem suits_perform {bound bound' choice : ℕ} {op : External} {r : op.Reply}
    (h : ∀ key entry, env.redis key=some entry → Suits key entry.value)
    (hm : moves bound (.external op) r bound') :
    ∀ key entry, (env.perform op choice).2.redis key=some entry → Suits key entry.value := by
  cases op with
  | redisSet key value expiry =>
    intro other entry ho
    by_cases he : other=key
    · subst he
      have hs : (env.redis.assign other value
          (some (env.clock+choice+seconds expiry))) other=some entry := ho
      rw [Store.assign_self] at hs
      cases hs
      exact hm.1
    · exact h other entry ((Store.assign_of_ne _ _ _ he).symm.trans ho)
  | redisDelete keys =>
    intro other entry ho
    by_cases he : other∈keys
    · have hs : env.redis.removeAll keys other=some entry := ho
      rw [Store.removeAll_of_mem _ he] at hs
      cases hs
    · exact h other entry ((Store.removeAll_of_notMem _ he).symm.trans ho)
  | redisIncr key =>
    intro other entry ho
    by_cases he : other=key
    · subst he
      have hs : (env.tick choice).increment other other=some entry := ho
      have hnumber : ∀ n m, Suits other (.number n) → Suits other (.number m) := by
        intro n m hn
        cases other <;> exact hn
      unfold Environment.increment at hs
      cases hfound : (env.tick choice).redis.lookup (env.tick choice).clock other with
      | none =>
        rw [hfound] at hs
        have hentry := (Store.assign_self _ _ _ _).symm.trans hs
        cases hentry
        exact hm.1
      | some value =>
        rw [hfound] at hs
        cases value with
        | number n =>
          have hs : env.redis.replace other (.number (n+1)) other=some entry := hs
          rw [Store.replace,Function.update_self] at hs
          obtain ⟨old,_,rfl⟩ := Option.map_eq_some_iff.mp hs
          exact hnumber 1 _ hm.1
        | _ => exact h other entry hs
    · exact h other entry (((env.tick choice).increment_of_ne he).symm.trans ho)
  | redisExpire key expiry =>
    intro other entry ho
    by_cases he : other=key
    · subst he
      have hs : env.redis.retime (env.clock+choice) other
          (env.clock+choice+seconds expiry) other=some entry := ho
      rw [Store.retime,Function.update_self] at hs
      obtain ⟨old,hold,rfl⟩ := Option.map_eq_some_iff.mp hs
      exact h other old (Option.filter_eq_some_iff.mp hold).1
    · exact h other entry ((Store.retime_of_ne _ _ _ he).symm.trans ho)
  | _ => exact h

/-- What holds between two effects of a request whose draws are below a bound. -/
structure SoundWorld (w : World) (bound : ℕ) : Prop where
  /-- The draws of the request are used. -/
  bound : bound ≤ w.env.draws
  /-- The working copy is sound. -/
  work : Sound w.env w.data.work
  /-- The committed tables are sound. -/
  committed : Sound w.env w.data.committed

/-- One effect the contract allows keeps the world sound. -/
theorem soundWorld_perform {w : World} {bound bound' : ℕ} {op : Effect} (h : SoundWorld w bound)
    (hm : moves bound op (w.perform op).1 bound') : SoundWorld (w.perform op).2 bound' := by
  cases op with
  | sql stmt =>
    obtain ⟨hwork,hcommitted,rfl⟩ := sound_perform h.work h.committed h.bound hm
    exact ⟨h.bound,hwork,hcommitted⟩
  | external op =>
    have hdraws := Environment.draws_le_perform op (w.choices.headD 0) w.env
    have hredis : ∀ key entry, (w.env.perform op (w.choices.headD 0)).2.redis key=some entry →
        Suits key entry.value := suits_perform h.work.suits hm
    have hsound : ∀ db, Sound w.env db → Sound (w.env.perform op (w.choices.headD 0)).2 db :=
      fun db hdb => hdb.mono hdraws hredis fun t => List.Sublist.refl _
    refine ⟨?_,hsound _ h.work,hsound _ h.committed⟩
    have hb : bound'=bound ∨ ∃ n, op=.draw ∧ bound'=n+1 ∧ n=w.env.draws := by
      cases op with
      | draw => exact .inr ⟨_,rfl,hm,rfl⟩
      | redisSet => exact .inl hm.2
      | redisIncr => exact .inl hm.2
      | _ => exact .inl hm
    obtain rfl|⟨n,rfl,rfl,rfl⟩ := hb
    · exact h.bound.trans hdraws
    · exact Nat.le_refl _

/-- A request leaves a sound world. -/
theorem soundWorld_run {α : Type} {p : Action α} {w : World} {bound : ℕ} (hp : Tidy p)
    (h : SoundWorld w bound) : ∃ bound', SoundWorld (p.run World.perform w).2 bound' := by
  have hoffer : ∀ w b op, SoundWorld w b → contract.Offers b op (World.perform op w).1 := by
    intro w b op hw
    cases op with
    | sql stmt => trivial
    | external op =>
      cases op with
      | draw => exact hw.bound
      | _ => trivial
  have hstep : ∀ w b op b', SoundWorld w b → contract.Moves b op (World.perform op w).1 b' →
      SoundWorld (World.perform op w).2 b' := fun _ _ _ _ hw hm => soundWorld_perform hw hm
  obtain ⟨bound',h',_⟩ := (hp bound).run hoffer hstep h
  exact ⟨bound',h'⟩

/-- Every input leaves a sound server. -/
theorem sound_next (d : Deployment) (input : Input) {s : ServerState} (h : Sound s.env s.db) :
    Sound (s.next d input).env (s.next d input).db := by
  cases input with
  | call client choices =>
    have hw : SoundWorld (s.world choices) 0 := ⟨Nat.zero_le _,h,h⟩
    obtain ⟨_,hrun⟩ := soundWorld_run (tidy_respond d client) hw
    exact hrun.committed
  | setActive userId active =>
    refine h.assign _ fun u => ?_
    split <;> exact ⟨rfl,rfl⟩
  | elapse delay => exact h.mono (Nat.le_refl _) h.suits fun t => List.Sublist.refl _

/-- A server that has just been installed. -/
def freshServer (clock : Instant) (draws : ℕ) : ServerState :=
  ⟨⟨Store.empty,clock,draws,[],[]⟩,fun _ => []⟩

/-- A state that some run reaches from a fresh server. -/
def Reachable (d : Deployment) (s : ServerState) : Prop :=
  ∃ clock draws trace, Runs d (fun _ _ _ => True) (freshServer clock draws) trace s

theorem sound_freshServer (clock : Instant) (draws : ℕ) :
    Sound (freshServer clock draws).env (freshServer clock draws).db :=
  ⟨fun _ _ => nofun,fun _ => .nil,fun _ _ => nofun⟩

/-- Soundness is an invariant of whole runs. -/
theorem sound_runs {d : Deployment} {C : Trace → ServerState → Input → Prop}
    {start s : ServerState} {trace : Trace} (hstart : Sound start.env start.db)
    (h : Runs d C start trace s) : Sound s.env s.db :=
  h.invariant (fun _ s => Sound s.env s.db) hstart fun _ _ input hs _ => sound_next d input hs

theorem Reachable.sound {d : Deployment} {s : ServerState} (h : Reachable d s) :
    Sound s.env s.db := by
  obtain ⟨clock,draws,trace,h⟩ := h
  exact sound_runs (sound_freshServer clock draws) h

end Soundness

end BackendPlatform.ReachableStates
