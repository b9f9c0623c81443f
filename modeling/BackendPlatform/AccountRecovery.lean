import BackendPlatform.FailedSignIns

/-!
# Signing in after a password reset

A reset installs the new password and lifts the sign-in block of the account
in the database. The locks of the two sign-in scopes live in Redis under
other keys than the ones a reset clears, so the next sign-in is refused for
as long as one of them has not expired.
-/

set_option autoImplicit false

namespace BackendPlatform.AccountRecovery

open ProgramTrees TransactionalTables ExpiringStore
open AuthRecords AuthEffects AuthRepositories AuthServices AuthFlows AuthFootprints
open ServerRuns ReachableStates FailedSignIns AuthService BruteForceProtectionService
open PasswordResetService

section Credentials

/-- The account has the password and its sign-in is not blocked. -/
def Restored (db : Database authSchema) (id : UUID) (email password : String) : Prop :=
  ∃ row∈db .users, row.id=id ∧ row.email=email ∧ row.passwordHash.text=password ∧
    row.loginBlocked=false

/-- The effect leaves password and sign-in block of the account alone. -/
def Spared (id : UUID) : Effect → Prop
  | .sql (.update .users q f) => ∀ r, r.id=id → q r=true → (f r).id=r.id ∧ (f r).email=r.email ∧
      (f r).passwordHash=r.passwordHash ∧ (f r).loginBlocked=r.loginBlocked
  | .sql (.delete .users _) => False
  | _ => True

variable {α β : Type} {p : Action α} {fp : List Access} {id : UUID} {email password : String}

/-- A footprint without the account table spares every account. -/
theorem spared_inside (hp : Inside p fp) (hu : .update .users∉fp) (hd : .delete .users∉fp) :
    p.Within (Spared id) := by
  refine Program.within_mono (fun op hop => ?_) hp
  unfold Spared
  split
  · exact absurd (hop _ (List.mem_singleton_self _)) hu
  · exact absurd (hop _ (List.mem_singleton_self _)) hd
  · trivial

/-- The working copy and the committed tables both have the account restored. -/
def RestoredWorld (id : UUID) (email password : String) (w : World) : Prop :=
  Restored w.data.work id email password ∧ Restored w.data.committed id email password

/-- A spared effect keeps the account restored. -/
theorem restoredWorld_perform {op : Effect} {w : World} (hop : Spared id op)
    (h : RestoredWorld id email password w) :
    RestoredWorld id email password (World.perform op w).2 := by
  obtain ⟨hwork,hcommitted⟩ := h
  cases op with
  | external op => exact ⟨hwork,hcommitted⟩
  | sql stmt =>
    have hkept : stmt≠.commit → Restored (World.perform (.sql stmt) w).2.data.committed id email
        password := by
      intro hne
      have hsame : (World.perform (.sql stmt) w).2.data.committed=w.data.committed :=
        Transaction.perform_committed w.data hne
      rwa [hsame]
    have huntouched : ¬Transaction.touches stmt .users →
        Restored (World.perform (.sql stmt) w).2.data.work id email password := by
      intro hno
      have hsame : (World.perform (.sql stmt) w).2.data.work .users=w.data.work .users :=
        Transaction.perform_work_of_not_touches w.data hno
      obtain ⟨r,hr,hrest⟩ := hwork
      exact ⟨r,hsame.symm ▸ hr,hrest⟩
    cases stmt with
    | insert t row =>
      refine ⟨?_,hkept nofun⟩
      by_cases ht : Table.users=t
      · subst ht
        obtain ⟨r,hr,hrest⟩ := hwork
        refine ⟨r,?_,hrest⟩
        show r∈(Transaction.insertRow w.data .users row).2.work .users
        unfold Transaction.insertRow
        split
        · split
          · exact hr
          · exact (Transaction.write_work_self w.data .users _).symm ▸ List.mem_append_left _ hr
        · exact hr
      · exact huntouched ht
    | update t q f =>
      refine ⟨?_,hcommitted⟩
      by_cases ht : Table.users=t
      · subst ht
        obtain ⟨r,hr,hid,hemail,hpassword,hblocked⟩ := hwork
        have hmem : (if q r=true then f r else r)∈
            (World.perform (.sql (.update .users q f)) w).2.data.work .users :=
          (Transaction.write_work_self w.data .users _).symm ▸ List.mem_map.mpr ⟨r,hr,rfl⟩
        refine ⟨_,hmem,?_⟩
        by_cases hq : q r=true
        · obtain ⟨h₁,h₂,h₃,h₄⟩ := hop r hid hq
          rw [if_pos hq,h₁,h₂,h₃,h₄]
          exact ⟨hid,hemail,hpassword,hblocked⟩
        · rw [if_neg hq]
          exact ⟨hid,hemail,hpassword,hblocked⟩
      · exact huntouched ht
    | delete t q =>
      refine ⟨huntouched ?_,hcommitted⟩
      intro ht
      obtain rfl : Table.users=t := ht
      exact hop
    | select => exact ⟨hwork,hcommitted⟩
    | selectForUpdate => exact ⟨hwork,hcommitted⟩
    | commit => exact ⟨hwork,hwork⟩
    | rollback => exact ⟨hcommitted,hcommitted⟩

/-- Spared credentials stay restored. -/
theorem yields_restored (hp : p.Within (Spared id)) {w : World}
    (h : RestoredWorld id email password w) :
    Yields p w fun _ w' => RestoredWorld id email password w' := by
  have hkeep : Yields p w fun _ w' =>
      RestoredWorld id email password w → RestoredWorld id email password w' :=
    Program.ensures_within (fun w w' : World =>
      RestoredWorld id email password w → RestoredWorld id email password w')
      (fun _ h => h) (by intro _ _ _ h h' hr; exact h' (h hr))
      (fun op w hop => restoredWorld_perform hop) hp w
  exact hkeep h

/-- An update of one row spares every other account. -/
theorem spared_flush {other : UUID} (hne : other≠id) (f : User → User) :
    (flushUpdate .users (fun u => u.id==other) f).Within (Spared id) := by
  have hop : Spared id (.sql (.update .users (fun u => u.id==other) f)) := by
    intro r hr hq
    exact absurd ((beq_iff_eq.mp hq).symm.trans hr) hne
  refine ⟨hop,fun n => ?_⟩
  show Program.Within _ (if n=1 then _ else _)
  split <;> trivial

end Credentials

section Endpoints

open TwoFactorService Endpoints

variable {id : UUID}

/-- Writing the flag spares password and block. -/
theorem spared_flushTwoFactorEnabled (user : LoadedUser) (enabled : Bool) :
    (UserRepository.flushTwoFactorEnabled user enabled).Within (Spared id) := by
  refine ⟨fun r _ _ => ⟨rfl,rfl,rfl,rfl⟩,fun n => ?_⟩
  show Program.Within _ (if n=1 then _ else _)
  split <;> trivial

/-- Setup spares the accounts. -/
theorem spared_createSetup (d : Deployment) (user : LoadedUser) :
    (createSetup d user).Within (Spared id) := by
  simp only [createSetup,Program.monad_throw,Program.monad_bind,Program.monad_pure]
  split
  · trivial
  · refine Program.within_bind ⟨trivial,fun _ => trivial⟩ fun secret => ?_
    refine Program.within_bind (spared_inside (inside_upsertSecret user _) (by decide) (by decide))
      fun _ => ?_
    refine Program.within_bind (spared_inside (inside_generatePlainBackupCodes 10) (by decide)
      (by decide)) fun codes => ?_
    refine Program.within_bind (spared_inside (inside_hashBackupCodes codes) (by decide)
      (by decide)) fun hashes => ?_
    exact Program.within_bind (spared_inside (inside_replaceBackupCodes _ hashes) (by decide)
      (by decide)) fun _ => trivial

/-- Enabling spares them but for the flag. -/
theorem spared_enable (d : Deployment) (user : LoadedUser) (code : String) :
    (enable d user code).Within (Spared id) := by
  simp only [enable,Program.monad_throw,Program.monad_bind]
  split
  · trivial
  · refine Program.within_bind (spared_inside (inside_getSecretForUpdate user) (by decide)
      (by decide)) fun found => ?_
    cases found with
    | none => trivial
    | some record =>
      refine Program.within_bind (spared_inside (inside_verifyTotpCode d _ code) (by decide)
        (by decide)) fun result => ?_
      split
      · trivial
      · refine Program.within_bind (spared_inside (inside_observe _) (by decide) (by decide))
          fun _ => ?_
        refine Program.within_bind (spared_inside inside_utcNow (by decide) (by decide))
          fun now => ?_
        refine Program.within_bind (spared_flushTwoFactorEnabled user true) fun _ => ?_
        exact spared_inside (inside_flushUpdate _ _ _) (by decide) (by decide)

/-- Disabling spares them but for the flag. -/
theorem spared_disable (d : Deployment) (user : LoadedUser) (totp backup : Option String) :
    (disable d user totp backup).Within (Spared id) := by
  refine Program.within_bind (spared_inside (inside_verifyForLogin d user totp backup) (by decide)
    (by decide)) fun factor => ?_
  refine Program.within_bind (spared_inside (inside_flushFactor factor) (by decide) (by decide))
    fun _ => ?_
  refine Program.within_bind ⟨trivial,fun _ => ⟨trivial,fun _ => trivial⟩⟩ fun _ => ?_
  exact spared_flushTwoFactorEnabled user false

/-- Regenerating codes spares the accounts. -/
theorem spared_regenerateBackupCodes (d : Deployment) (user : LoadedUser)
    (totp backup : Option String) :
    (TwoFactorService.regenerateBackupCodes d user totp backup).Within (Spared id) := by
  refine Program.within_bind (spared_inside (inside_verifyForLogin d user totp backup) (by decide)
    (by decide)) fun factor => ?_
  refine Program.within_bind (spared_inside (inside_generatePlainBackupCodes 10) (by decide)
    (by decide)) fun codes => ?_
  refine Program.within_bind (spared_inside (inside_hashBackupCodes codes) (by decide)
    (by decide)) fun hashes => ?_
  refine Program.within_bind (spared_inside (inside_flushFactor factor) (by decide) (by decide))
    fun _ => ?_
  exact Program.within_bind (spared_inside (inside_replaceBackupCodes _ hashes) (by decide)
    (by decide)) fun _ => trivial

/-- Requests other than sign-ins and resets spare every account. -/
theorem spared_respond (d : Deployment) (client : ClientRequest)
    (hlogin : ∀ email password, client.request≠.login email password)
    (hreset : ∀ email code password, client.request≠.resetPassword email code password) :
    (respond d client).Within (Spared id) := by
  have huser : ∀ authorization, (getCurrentUser d authorization).Within (Spared id) :=
    fun _ => spared_inside (inside_getCurrentUser d _) (by decide) (by decide)
  have hcompleted : ∀ event user ip ua, (completed d event user ip ua).Within (Spared id) :=
    fun _ _ _ _ => spared_inside (inside_completed d _ _ _ _) (by decide) (by decide)
  obtain ⟨request,ip,ua⟩ := client
  have hinside : ∀ fp, footprint request=fp → .update .users∉fp → .delete .users∉fp →
      (respond d ⟨request,ip,ua⟩).Within (Spared id) :=
    fun fp he hu hd => spared_inside (inside_respond d ⟨request,ip,ua⟩) (he ▸ hu) (he ▸ hd)
  cases request with
  | login email password => exact absurd rfl (hlogin email password)
  | resetPassword email code password => exact absurd rfl (hreset email code password)
  | setupTwoFactor authorization =>
    refine Program.within_bind (Program.within_bind (huser _) fun user => ?_) fun _ => trivial
    exact Program.within_bind (spared_createSetup d user) fun _ =>
      Program.within_bind (hcompleted _ user ip ua) fun _ => trivial
  | enableTwoFactor authorization code =>
    refine Program.within_bind (Program.within_bind (huser _) fun user => ?_) fun _ => trivial
    exact Program.within_bind (spared_enable d user code) fun _ => hcompleted _ user ip ua
  | disableTwoFactor authorization password totp backup =>
    refine Program.within_bind (Program.within_bind (huser _) fun user => ?_) fun _ => trivial
    simp only [Program.monad_throw,Program.monad_bind]
    split
    · trivial
    · exact Program.within_bind (spared_disable d user _ _) fun _ => hcompleted _ user ip ua
  | regenerateBackupCodes authorization totp backup =>
    refine Program.within_bind (Program.within_bind (huser _) fun user => ?_) fun _ => trivial
    exact Program.within_bind (spared_regenerateBackupCodes d user _ _) fun _ =>
      Program.within_bind (hcompleted _ user ip ua) fun _ => trivial
  | register => exact hinside registration rfl (by decide) (by decide)
  | verifyLoginChallenge => exact hinside secondStep rfl (by decide) (by decide)
  | refreshTokens => exact hinside refresh rfl (by decide) (by decide)
  | revokeRefreshToken => exact hinside refresh rfl (by decide) (by decide)
  | requestReset => exact hinside resetRequest rfl (by decide) (by decide)
  | currentSession => exact hinside authentication rfl (by decide) (by decide)

end Endpoints

section Resets

variable {d : Deployment} {ip ua : Option String}

/-- The address under which a request looks an account up. -/
def account (d : Deployment) (email : String) : String := d.lower (d.lower email)

/-- The hash of a password is the hash of that password. -/
theorem yields_hashPassword (password : String) (w : World) :
    Yields (PasswordService.hashPassword d password) w fun o w' => w'.data=w.data ∧
      ∀ h, o=.ok h → h.text=password := by
  refine (yields_data (inside_hashPassword d password) (by decide) w).and ?_
  refine yields_skip (fun _ w' => ?_) fun _ _ _ => nofun
  intro h hh
  cases hh
  rfl

/-- Actions that spare the accounts keep the working copy restored. -/
theorem yields_kept {α : Type} {p : Action α} {fp : List Access} {id : UUID}
    {email password : String} (hp : Inside p fp) (hu : ∀ a∈fp,Spares .users a) {w : World}
    (h : Restored w.data.work id email password) :
    Yields p w fun _ w' => Restored w'.data.work id email password := by
  refine (yields_work .users hp hu w).mono fun _ w' hsame => ?_
  obtain ⟨r,hr,hrest⟩ := h
  exact ⟨r,hsame.symm ▸ hr,hrest⟩

/-- A completed password change has restored the account. -/
theorem yields_changePassword (user : LoadedUser) (record : PasswordResetToken) (now : Instant)
    (newPassword identifier email : String) {w : World}
    (hunique : (w.data.work .users).Pairwise fun a b => conflict .users a b=false)
    (hstored : user.row∈w.data.work .users) :
    Yields (changePassword d user record now newPassword identifier email ip ua) w
      fun o w' => o=.ok () →
        Restored w'.data.committed user.row.id user.row.email newPassword := by
  refine (yields_hashPassword newPassword w).bind (fun passwordHash w₁ h₁ => ?_) fun _ _ _ => nofun
  obtain ⟨hdata₁,htext⟩ := h₁
  have hone : ((w₁.data.work .users).filter fun (u : User) => u.id==user.row.id).length=1 := by
    rw [hdata₁]
    refine filter_length_eq_one hunique hstored (by simp) ?_
    intro a b ha hb
    simp_all [conflict]
  have hflush : Yields (UserRepository.flushUpdatePassword user passwordHash) w₁ fun _ w' =>
      Restored w'.data.work user.row.id user.row.email newPassword := by
    unfold Yields Program.Ensures UserRepository.flushUpdatePassword
    rw [run_flushUpdate hone]
    refine ⟨{user.row with
      passwordHash := passwordHash
      loginBlocked := if user.row.loginBlocked then false else user.row.loginBlocked},?_,
      rfl,rfl,htext passwordHash rfl,by simp⟩
    refine (Transaction.write_work_self w₁.data .users _).symm ▸ ?_
    rw [hdata₁]
    exact List.mem_map.mpr ⟨user.row,hstored,by simp⟩
  refine hflush.bind (fun _ w₂ h₂ => ?_) fun _ _ _ => nofun
  refine (yields_kept (inside_flushUpdate _ _ _) (by decide) h₂).bind (fun _ w₃ h₃ => ?_)
    fun _ _ _ => nofun
  refine (yields_kept (inside_listActiveSessionIdsForUser _) (by decide) h₃).bind
    (fun _ w₄ h₄ => ?_) fun _ _ _ => nofun
  refine (yields_kept (inside_revokeTokensWhere _ _) (by decide) h₄).bind
    (fun _ w₅ h₅ => ?_) fun _ _ _ => nofun
  refine (yields_kept (inside_revokeSessionsWhere _) (by decide) h₅).bind
    (fun _ w₆ h₆ => ?_) fun _ _ _ => nofun
  refine (yields_kept (inside_markAccessSessionsRevoked d _) (by decide) h₆).bind
    (fun _ w₇ h₇ => ?_) fun _ _ _ => nofun
  refine (yields_kept (inside_clearFailures d _ _) (by decide) h₇).bind
    (fun _ w₈ h₈ => ?_) fun _ _ _ => nofun
  refine (yields_kept (inside_clearFailures d _ _) (by decide) h₈).bind
    (fun _ w₉ h₉ => ?_) fun _ _ _ => nofun
  refine (yields_kept (inside_logEvent d _ _ _ _ _ _ _) (by decide) h₉).bind
    (fun _ w₁₀ h₁₀ => ?_) fun _ _ _ => nofun
  exact fun _ => h₁₀

/-- A refused code ends with a failure. -/
theorem yields_refuseCode (identifier email : String) (user : Option LoadedUser) (w : World) :
    Yields (refuseCode d identifier email user) w fun o _ => ∃ e, o=.error e :=
  yields_skip (fun _ _ => ⟨_,rfl⟩) fun e _ => ⟨e,rfl⟩

/-- A completed reset has restored the account stored under the address. -/
theorem yields_resetPassword (email code newPassword : String) {w : World}
    (hunique : (w.data.work .users).Pairwise fun a b => conflict .users a b=false) :
    Yields (resetPassword d email code newPassword ip ua) w fun o w' => o=.ok () →
      ∃ row∈w.data.work .users, row.email=account d email ∧
        Restored w'.data.committed row.id (account d email) newPassword := by
  have hrefuse : ∀ identifier user w', Yields (refuseCode d identifier (d.lower email) user) w'
      fun o w'' => o=.ok () → ∃ row∈w.data.work .users, row.email=account d email ∧
        Restored w''.data.committed row.id (account d email) newPassword := by
    intro identifier user w'
    refine (yields_refuseCode identifier (d.lower email) user w').mono ?_
    rintro _ _ ⟨e,rfl⟩ he
    cases he
  refine (yields_data (inside_assertNotLocked d _ _) (by decide) w).bind (fun _ w₁ h₁ => ?_)
    fun _ _ _ => nofun
  refine (yields_data (inside_assertNotLocked d _ _) (by decide) w₁).bind (fun _ w₂ h₂ => ?_)
    fun _ _ _ => nofun
  refine (yields_load _ w₂).bind (fun found w₃ hload => ?_) fun _ _ _ => nofun
  cases found with
  | none => exact hrefuse _ none _
  | some user =>
    obtain ⟨rfl,huser⟩ := hload
    obtain ⟨hstored,hemail⟩ := huser user rfl
    have hemail : user.row.email=account d email := beq_iff_eq.mp hemail
    simp only [Program.monad_throw,Program.monad_bind]
    split
    · exact nofun
    · refine (yields_data (inside_getActiveForUserByHash _ _) (by decide) w₃).bind
        (fun found w₄ h₄ => ?_) fun _ _ _ => nofun
      cases found with
      | none => exact hrefuse _ _ _
      | some record =>
        dsimp only
        split
        · exact hrefuse _ _ _
        · refine (yields_data inside_utcNow (by decide) w₄).bind (fun now w₅ h₅ => ?_)
            fun _ _ _ => nofun
          split
          · exact hrefuse _ _ _
          · have hdata : w₅.data=w.data := ((h₅.trans h₄).trans h₂).trans h₁
            have hstored : user.row∈w.data.work .users := by rwa [h₂.trans h₁] at hstored
            refine (yields_changePassword user record now newPassword _ _ ?_ ?_).mono ?_
            · rwa [hdata]
            · rwa [hdata]
            · intro o w' h ho
              exact ⟨user.row,hstored,hemail,hemail ▸ h ho⟩

/-- A part without a commit, before something that keeps the committed tables
or completes. -/
theorem yields_before {α : Type} {p : Action α} {f : α → Action Unit} {fp : List Access}
    {committed : Database authSchema} {w : World} (hp : Inside p fp) (hc : .commit∉fp)
    (h : w.data.committed=committed) (hf : ∀ a w', w'.data.committed=committed →
      Yields (f a) w' fun o w'' => o=.ok () ∨ w''.data.committed=committed) :
    Yields (p.bind f) w fun o w' => o=.ok () ∨ w'.data.committed=committed :=
  (yields_committed hp hc w).bind (fun a w' h' => hf a w' (h'.trans h))
    fun _ _ h' => .inr (h'.trans h)

/-- A password change that does not complete changes nothing. -/
theorem yields_changePassword_committed (user : LoadedUser) (record : PasswordResetToken)
    (now : Instant) (newPassword identifier email : String) (w : World) :
    Yields (changePassword d user record now newPassword identifier email ip ua) w
      fun o w' => o=.ok () ∨ w'.data.committed=w.data.committed := by
  refine yields_before (inside_hashPassword d _) (by decide) rfl fun _ w₁ h₁ => ?_
  refine yields_before (inside_flushUpdate _ _ _) (by decide) h₁ fun _ w₂ h₂ => ?_
  refine yields_before (inside_flushUpdate _ _ _) (by decide) h₂ fun _ w₃ h₃ => ?_
  refine yields_before (inside_listActiveSessionIdsForUser _) (by decide) h₃ fun _ w₄ h₄ => ?_
  refine yields_before (inside_revokeTokensWhere _ _) (by decide) h₄ fun _ w₅ h₅ => ?_
  refine yields_before (inside_revokeSessionsWhere _) (by decide) h₅ fun _ w₆ h₆ => ?_
  refine yields_before (inside_markAccessSessionsRevoked d _) (by decide) h₆ fun _ w₇ h₇ => ?_
  refine yields_before (inside_clearFailures d _ _) (by decide) h₇ fun _ w₈ h₈ => ?_
  refine yields_before (inside_clearFailures d _ _) (by decide) h₈ fun _ w₉ h₉ => ?_
  refine yields_before (inside_logEvent d _ _ _ _ _ _ _) (by decide) h₉ fun _ w₁₀ h₁₀ => ?_
  exact .inl rfl

/-- A refused code may block the resets and spares the rest. -/
theorem spared_refuseCode {id : UUID} (identifier email : String) (user : Option LoadedUser) :
    (refuseCode d identifier email user).Within (Spared id) := by
  refine Program.within_bind ?_ fun _ => trivial
  refine Program.within_bind (spared_inside (inside_recordFailure d _ _) (by decide) (by decide))
    fun _ => ?_
  refine Program.within_bind (spared_inside (inside_recordFailure d _ _) (by decide) (by decide))
    fun attempts => ?_
  cases user with
  | none => trivial
  | some user =>
    simp only [Program.monad_bind]
    split
    · refine Program.within_bind ⟨fun r _ _ => ⟨rfl,rfl,rfl,rfl⟩,fun n => ?_⟩ fun _ =>
        spared_inside inside_commit (by decide) (by decide)
      show Program.Within _ (if n=1 then _ else _)
      split <;> trivial
    · trivial

/-- The password change of another account spares the account. -/
theorem spared_changePassword {id : UUID} {user : LoadedUser} (hne : user.row.id≠id)
    (record : PasswordResetToken) (now : Instant) (newPassword identifier email : String) :
    (changePassword d user record now newPassword identifier email ip ua).Within (Spared id) := by
  refine Program.within_bind (spared_inside (inside_hashPassword d _) (by decide) (by decide))
    fun _ => ?_
  refine Program.within_bind (spared_flush hne _) fun _ => ?_
  refine Program.within_bind (spared_inside (inside_flushUpdate _ _ _) (by decide) (by decide))
    fun _ => ?_
  refine Program.within_bind (spared_inside (inside_listActiveSessionIdsForUser _) (by decide)
    (by decide)) fun _ => ?_
  refine Program.within_bind (spared_inside (inside_revokeTokensWhere _ _) (by decide) (by decide))
    fun _ => ?_
  refine Program.within_bind (spared_inside (inside_revokeSessionsWhere _) (by decide)
    (by decide)) fun _ => ?_
  refine Program.within_bind (spared_inside (inside_markAccessSessionsRevoked d _) (by decide)
    (by decide)) fun _ => ?_
  refine Program.within_bind (spared_inside (inside_clearFailures d _ _) (by decide) (by decide))
    fun _ => ?_
  refine Program.within_bind (spared_inside (inside_clearFailures d _ _) (by decide) (by decide))
    fun _ => ?_
  refine Program.within_bind (spared_inside (inside_logEvent d _ _ _ _ _ _ _) (by decide) (by decide))
    fun _ => ?_
  exact spared_inside inside_commit (by decide) (by decide)

/-- A reset keeps a restored account unless it completes for that account. -/
theorem yields_resetPassword_kept {id : UUID} {stored password : String}
    (email code newPassword : String) {w : World}
    (hunique : (w.data.work .users).Pairwise fun a b => conflict .users a b=false)
    (h : RestoredWorld id stored password w) :
    Yields (resetPassword d email code newPassword ip ua) w fun o w' =>
      (o=.ok () ∧ account d email=stored) ∨ Restored w'.data.committed id stored password := by
  have hspared : ∀ {p : Action Unit} {w' : World}, p.Within (Spared id) → RestoredWorld id stored password w' →
      Yields p w' fun o w'' => (o=.ok () ∧ account d email=stored) ∨
        Restored w''.data.committed id stored password :=
    fun hp hw => (yields_restored hp hw).mono fun _ _ h => .inr h.2
  have hsame : ∀ w' : World, w'.data=w.data → RestoredWorld id stored password w' := by
    intro w' hd
    unfold RestoredWorld
    rwa [hd]
  have hdone : ∀ {e : Failure} {w' : World}, w'.data=w.data →
      ((Except.error e : Except Failure Unit)=.ok () ∧ account d email=stored) ∨
        Restored w'.data.committed id stored password := fun hd => .inr (hsame _ hd).2
  refine (yields_data (inside_assertNotLocked d _ _) (by decide) w).bind (fun _ w₁ h₁ => ?_)
    fun _ _ h => hdone h
  refine (yields_data (inside_assertNotLocked d _ _) (by decide) w₁).bind (fun _ w₂ h₂ => ?_)
    fun _ _ h => hdone (h.trans h₁)
  refine (yields_load _ w₂).bind (fun found w₃ hload => ?_)
    fun _ _ h => hdone ((h.1 ▸ h₂).trans h₁)
  obtain ⟨rfl,huser⟩ := hload
  have hdata₃ := h₂.trans h₁
  cases found with
  | none => exact hspared (spared_refuseCode _ _ none) (hsame _ hdata₃)
  | some user =>
    obtain ⟨hstored,hemail⟩ := huser user rfl
    have hemail : user.row.email=account d email := beq_iff_eq.mp hemail
    simp only [Program.monad_throw,Program.monad_bind]
    split
    · exact hdone hdata₃
    · refine (yields_data (inside_getActiveForUserByHash _ _) (by decide) w₃).bind
        (fun found w₄ h₄ => ?_) fun _ _ h => hdone (h.trans hdata₃)
      cases found with
      | none => exact hspared (spared_refuseCode _ _ _) (hsame _ (h₄.trans hdata₃))
      | some record =>
        dsimp only
        split
        · exact hspared (spared_refuseCode _ _ _) (hsame _ (h₄.trans hdata₃))
        · refine (yields_data inside_utcNow (by decide) w₄).bind (fun now w₅ h₅ => ?_)
            fun _ _ h => hdone ((h.trans h₄).trans hdata₃)
          have hdata₅ : w₅.data=w.data := (h₅.trans h₄).trans hdata₃
          split
          · exact hspared (spared_refuseCode _ _ _) (hsame _ hdata₅)
          · by_cases hid : user.row.id=id
            · obtain ⟨row,hrow,hrowid,hrowemail,_⟩ := h.1
              have huserrow : user.row=row := by
                rw [hdata₃] at hstored
                exact eq_of_conflict hunique hstored hrow (by simp [conflict,hid,hrowid])
              refine (yields_changePassword_committed user record now newPassword _ _ w₅).mono ?_
              rintro o w' (ho|hc)
              · exact .inl ⟨ho,by rw [←hemail,huserrow,hrowemail]⟩
              · exact .inr (by rw [hc,hdata₅]; exact h.2)
            · exact hspared (spared_changePassword hid _ _ _ _ _) (hsame _ hdata₅)

/-- A failed sign-in of another account spares the account. -/
theorem spared_rejectPassword {id : UUID} {user : Option LoadedUser}
    (hne : ∀ other, user=some other → other.row.id≠id) (email identifier : String) :
    (rejectPassword d user email identifier ip ua).Within (Spared id) := by
  refine Program.within_bind (spared_inside (inside_recordFailure d _ _) (by decide) (by decide))
    fun _ => ?_
  refine Program.within_bind ?_ fun blocked => ?_
  · cases user with
    | none => trivial
    | some other =>
      refine Program.within_bind (spared_inside (inside_recordFailure d _ _) (by decide)
        (by decide)) fun attempts => ?_
      simp only [Program.monad_bind,Program.monad_pure]
      split
      · exact Program.within_bind (spared_flush (hne other rfl) _) fun _ => trivial
      · trivial
  · refine Program.within_bind (spared_inside (inside_logEvent d _ _ _ _ _ _ _) (by decide)
      (by decide)) fun _ => ?_
    refine Program.within_bind (spared_inside inside_commit (by decide) (by decide)) fun _ => ?_
    cases blocked <;> trivial

/-- Granting access spares the accounts. -/
theorem spared_grantAccess {id : UUID} (user : LoadedUser) (email identifier : String) :
    (grantAccess d user email identifier ip ua).Within (Spared id) := by
  refine Program.within_bind (spared_inside (inside_clearFailures d _ _) (by decide) (by decide))
    fun _ => ?_
  refine Program.within_bind (spared_inside (inside_clearFailures d _ _) (by decide) (by decide))
    fun _ => ?_
  simp only [Program.monad_bind,Program.monad_pure]
  split
  · exact Program.within_bind (spared_inside (inside_createLoginChallenge d _ ip) (by decide)
      (by decide)) fun _ => trivial
  · refine Program.within_bind (spared_inside (inside_issueForUser d _ ip ua) (by decide)
      (by decide)) fun _ => ?_
    refine Program.within_bind (spared_inside (inside_logEvent d _ _ _ _ _ _ _) (by decide)
      (by decide)) fun _ => ?_
    exact Program.within_bind (spared_inside inside_commit (by decide) (by decide)) fun _ => trivial

/-- A sign-in keeps a restored account unless its password check fails for
that account. -/
theorem yields_login_kept {id : UUID} {stored restored : String} {s : ServerState}
    {email password : String} {choices : List ℕ}
    (hunique : (s.db .users).Pairwise fun a b => conflict .users a b=false)
    (h : Restored s.db id stored restored)
    (hno : account d email=stored → ∀ user w,
      ¬CheckFails d s email password ip choices user w) :
    Yields (login d email password ip ua) (s.world choices) fun _ w' =>
      Restored w'.data.committed id stored restored := by
  have hguards := yields_loginGuards d email ip (s.world choices)
  rw [login_eq]
  unfold Yields Program.Ensures at hguards ⊢
  rw [Program.run_bind]
  generalize hrun : (loginGuards d email ip).run World.perform (s.world choices)=r at hguards
  obtain ⟨o,w₁⟩ := r
  obtain ⟨hdata,huser⟩ := hguards
  have hdata : w₁.data=⟨s.db,s.db⟩ := hdata
  have hw₁ : RestoredWorld id stored restored w₁ := by
    unfold RestoredWorld
    rw [hdata]
    exact ⟨h,h⟩
  cases o with
  | error e => exact hw₁.2
  | ok user =>
    have hjudge : (judge d email password ip ua user).Within (Spared id) := by
      cases hok : passwordOk password user with
      | false =>
        rw [judge_of_not_ok d email password ip ua hok]
        refine spared_rejectPassword ?_ _ _
        rintro other rfl hid
        obtain ⟨hstored,hemail⟩ := huser other rfl
        obtain ⟨row,hrow,hrowid,hrowemail,_⟩ := h
        have hsame : other.row=row :=
          eq_of_conflict hunique hstored hrow (by simp [conflict,hid,hrowid])
        have hmine : account d email=stored := by rw [←hrowemail,←hsame,hemail,account]
        exact hno hmine (some other) w₁ ⟨hrun,hok⟩
      | true =>
        cases user with
        | none => cases hok
        | some other =>
          have hok : PasswordService.verifyPassword password other.row.passwordHash=true := hok
          simp only [judge,hok,Bool.not_true,Bool.false_eq_true,if_false]
          split
          · exact spared_inside (inside_refuse d _ ip ua _ _) (by decide) (by decide)
          · exact spared_grantAccess other _ _
    have hkeep : Yields (judge d email password ip ua user) w₁ fun _ w' =>
        RestoredWorld id stored restored w' := yields_restored hjudge hw₁
    exact hkeep.2

end Resets

section SignIns

open RefreshTokenService JWTService

variable {d : Deployment} {ip ua : Option String} {w : World} {bound : ℕ}

/-- The world after the next delay. -/
def World.elapsed (w : World) : World :=
  {w with env := w.env.tick (w.choices.headD 0), choices := w.choices.tail}

/-- A lock that has not expired after the next delay. -/
def lockedAt (w : World) (key : RedisKey) : Bool :=
  (w.env.redis.lookup (w.env.clock+w.choices.headD 0) key).isSome

/-- Neither of the two locks of a sign-in is there when it is looked for. -/
def Unlocked (d : Deployment) (email : String) (ip : Option String) (w : World) : Prop :=
  lockedAt w (lockKey d .login (loginIdentifier d email ip))=false ∧
    lockedAt (World.elapsed w) (lockKey d .loginAccount (d.lower email))=false

/-- Without the lock the check passes. -/
theorem run_assertNotLocked {scope : Scope} {identifier : String}
    (h : lockedAt w (lockKey d scope identifier)=false) :
    (assertNotLocked d scope identifier).run World.perform w=(.ok (),World.elapsed w) := by
  have hreply : (World.perform (.external (.redisExists (lockKey d scope identifier))) w).1=false :=
    h
  simp only [assertNotLocked,redisExists,external,Program.monad_bind,Program.call_bind,
    Program.pure_bind,Program.run]
  rw [hreply]
  rfl

/-- With the lock the check fails with its message. -/
theorem run_assertNotLocked_locked {scope : Scope} {identifier : String}
    (h : lockedAt w (lockKey d scope identifier)=true) : ∃ message w',
    (assertNotLocked d scope identifier).run World.perform w=(.error (.accountLocked message),w') := by
  have hreply : (World.perform (.external (.redisExists (lockKey d scope identifier))) w).1=true :=
    h
  simp only [assertNotLocked,redisExists,external,Program.monad_bind,Program.call_bind,
    Program.pure_bind,Program.run]
  rw [hreply]
  exact ⟨_,_,rfl⟩

/-- The only stored account of an address is loaded. -/
theorem run_getByEmail {email : String} {row : User}
    (hunique : (w.data.work .users).Pairwise fun a b => conflict .users a b=false)
    (hrow : row∈w.data.work .users) (hemail : row.email=account d email) :
    ∃ user, user.row=row ∧
      (UserRepository.getByEmail d (d.lower email)).run World.perform w=(.ok (some user),w) := by
  have hone : ((w.data.work .users).filter fun (u : User) => u.email==account d email).length=1 := by
    refine filter_length_eq_one hunique hrow (by simp [hemail]) ?_
    intro a b ha hb
    simp_all [conflict]
  have hmem : row∈(w.data.work .users).filter fun (u : User) => u.email==account d email :=
    List.mem_filter.mpr ⟨hrow,by simp [hemail]⟩
  obtain ⟨only,honly⟩ := List.length_eq_one_iff.mp hone
  rw [honly,List.mem_singleton] at hmem
  subst hmem
  have hload := load_run (fun u => u.email==account d email) w
  rw [honly] at hload
  exact ⟨_,rfl,hload⟩

/-- A fresh value, with the world it leaves. -/
theorem yields_uuid4 (hw : SoundWorld w bound) : Yields uuid4 w fun o w' =>
    o=.ok ⟨w.env.draws⟩ ∧ w'.data=w.data ∧ ∃ bound', SoundWorld w' bound' :=
  ⟨rfl,rfl,soundWorld_run tidy_uuid4 hw⟩

/-- A session for a user is opened exactly if client address and client
program fit. -/
theorem yields_createSession (userId familyId : UUID) (hw : SoundWorld w bound) :
    Yields (SessionRepository.create userId familyId ip ua) w fun o w' =>
      (∃ bound', SoundWorld w' bound') ∧ o.isOk=(fits 64 ip && fits 512 ua) := by
  have hsound : Yields (SessionRepository.create userId familyId ip ua) w fun _ w' =>
      ∃ bound', SoundWorld w' bound' := soundWorld_run (tidy_createSession userId familyId ip ua) hw
  refine hsound.and ?_
  refine (yields_uuid4 hw).bind (fun id w₁ h => ?_) fun _ _ h => by cases h.1
  obtain ⟨hid,hdata,_⟩ := h
  cases hid
  cases hfits : fits 64 ip && fits 512 ua with
  | false =>
    have hrun : (insertRow .userSessions ⟨⟨w.env.draws⟩,userId,familyId,ip,ua,none,none⟩).run
        World.perform w₁=(.error .dataError,w₁) := run_insertRow_invalid hfits
    simp only [Program.Ensures,Program.monad_bind,Program.run_bind,hrun]
    rfl
  | true =>
    have hfresh : (w₁.data.work .userSessions).any (conflict .userSessions
        ⟨⟨w.env.draws⟩,userId,familyId,ip,ua,none,none⟩)=false := by
      refine List.any_eq_false.mpr fun r hr => ?_
      rw [hdata] at hr
      have hlt : r.id.int<w.env.draws := hw.work.drawn .userSessions r hr
      have hne : (⟨w.env.draws⟩ : UUID)≠r.id := fun he => absurd (congrArg UUID.int he)
        (Nat.ne_of_gt hlt)
      simpa [conflict] using hne
    have hvalid : valid .userSessions ⟨⟨w.env.draws⟩,userId,familyId,ip,ua,none,none⟩=true := hfits
    simp only [Program.Ensures,Program.monad_bind,Program.run_bind,run_insertRow hvalid hfresh]
    rfl

/-- Tokens are issued exactly if client address and client program fit. -/
theorem yields_issueForUser (userId : UUID) (hw : SoundWorld w bound) :
    Yields (issueForUser d userId ip ua) w fun o _ => o.isOk=(fits 64 ip && fits 512 ua) := by
  refine (yields_uuid4 hw).bind (fun familyId w₁ h₁ => ?_) fun _ _ h => by cases h.1
  obtain ⟨_,_,bound₁,hw₁⟩ := h₁
  refine (yields_createSession userId familyId hw₁).bind (fun session w₂ h₂ => ?_)
    fun e w₂ h₂ => h₂.2
  · obtain ⟨⟨bound₂,hw₂⟩,hok⟩ := h₂
    have hfits : (fits 64 ip && fits 512 ua)=true := hok.symm
    rw [hfits]
    refine (yields_uuid4 hw₂).bind (fun jti w₃ h₃ => ?_) fun _ _ h => by cases h.1
    obtain ⟨hjti,hdata₃,_⟩ := h₃
    cases hjti
    have hissue : Yields (issueRefreshToken d userId session.id familyId ⟨w₂.env.draws⟩) w₃
        fun o w' => w'.data=w₃.data ∧ ∃ r, o=.ok r := ⟨rfl,_,rfl⟩
    refine hissue.bind (fun r w₄ h₄ => ?_) fun _ _ ⟨_,_,he⟩ => by cases he
    have hinsert : ∀ row : RefreshToken, row.jti=⟨w₂.env.draws⟩ → row.ipAddress=ip →
        row.userAgent=ua → Yields (RefreshTokenRepository.create row) w₄ fun o _ => o=.ok () := by
      rintro row hrow rfl rfl
      have hvalid : valid .refreshTokens row=true := hfits
      have hfresh : (w₄.data.work .refreshTokens).any (conflict .refreshTokens row)=false := by
        refine List.any_eq_false.mpr fun t ht => ?_
        rw [h₄.1,hdata₃] at ht
        have hlt : t.jti.int<w₂.env.draws := hw₂.work.drawn .refreshTokens t ht
        have hne : row.jti≠t.jti := fun he => absurd (congrArg UUID.int (hrow.symm.trans he))
          (Nat.ne_of_gt hlt)
        simpa [conflict] using hne
      exact congrArg Prod.fst (run_insertRow hvalid hfresh)
    refine (hinsert _ rfl rfl rfl).bind (fun _ w₅ _ => ?_) fun _ _ he => by cases he
    rfl

/-- The last part of a sign-in returns tokens exactly if client address and
client program fit. -/
theorem yields_grantAccess (user : LoadedUser) (hfactor : user.row.twoFactorEnabled=false)
    (email identifier : String) (hw : SoundWorld w bound) :
    Yields (grantAccess d user email identifier ip ua) w fun o _ =>
      (∃ pair, o=.ok ⟨false,none,some pair⟩) ↔ (fits 64 ip && fits 512 ua)=true := by
  have hclear : ∀ (scope : Scope) (key : String) {w : World} {bound : ℕ}, SoundWorld w bound →
      Yields (clearFailures d scope key) w fun o w' => o=.ok () ∧ ∃ bound', SoundWorld w' bound' :=
    fun scope key w bound hw => ⟨rfl,soundWorld_run (tidy_clearFailures d scope key) hw⟩
  refine (hclear _ _ hw).bind (fun _ w₁ h₁ => ?_) fun _ _ h => by cases h.1
  obtain ⟨_,bound₁,hw₁⟩ := h₁
  refine (hclear _ _ hw₁).bind (fun _ w₂ h₂ => ?_) fun _ _ h => by cases h.1
  obtain ⟨_,bound₂,hw₂⟩ := h₂
  simp only [hfactor,Program.monad_bind,Program.monad_pure,Bool.false_eq_true,if_false]
  refine (yields_issueForUser user.row.id hw₂).bind (fun pair w₃ h₃ => ?_) fun e w₃ h₃ => ?_
  · have hfits : (fits 64 ip && fits 512 ua)=true := h₃.symm
    have hlog : Yields (AuditService.logEvent d "auth.login.success" "success" (some user.row.id)
      (some user.row.id)
        ip ua []) w₃ fun o _ => o=.ok () := by
      have hvalid : valid .auditEvents ⟨"auth.login.success","success",some user.row.id,
          some user.row.id,ip,ua,AuditService.sanitizePayload d []⟩=true := hfits
      exact congrArg Prod.fst (run_insertRow hvalid
        (List.any_eq_false.mpr fun _ _ => by simp [conflict]))
    refine hlog.bind (fun _ w₄ _ => ?_) fun _ _ he => by cases he
    exact ⟨fun _ => hfits,fun _ => ⟨pair,rfl⟩⟩
  · have hfits : (fits 64 ip && fits 512 ua)=false := h₃.symm
    rw [hfits]
    exact ⟨by rintro ⟨_,⟨⟩⟩,by rintro ⟨⟩⟩

/-- A sign-in with the password of an active account that needs no second
factor and is not blocked returns tokens exactly if no lock is there and
client address and client program fit. -/
theorem yields_signIn {email password : String} {row : User} (hw : SoundWorld w bound)
    (hrow : row∈w.data.work .users) (hemail : row.email=account d email)
    (hpassword : row.passwordHash.text=password) (hblocked : row.loginBlocked=false)
    (hactive : row.isActive=true) (hfactor : row.twoFactorEnabled=false) :
    Yields (login d email password ip ua) w fun o _ =>
      (∃ pair, o=.ok ⟨false,none,some pair⟩) ↔
        Unlocked d email ip w ∧ fits 64 ip=true ∧ fits 512 ua=true := by
  obtain ⟨user,rfl,hload⟩ := run_getByEmail (d := d) (hw.work.unique .users) hrow hemail
  have hsound : ∀ {w : World} {bound : ℕ}, SoundWorld w bound →
      SoundWorld (World.elapsed w) bound := fun hw => ⟨hw.bound,
    hw.work.mono (Nat.le_refl _) hw.work.suits fun _ => List.Sublist.refl _,
    hw.committed.mono (Nat.le_refl _) hw.committed.suits fun _ => List.Sublist.refl _⟩
  have hok : PasswordService.verifyPassword password user.row.passwordHash=true := by
    rw [PasswordService.verifyPassword,hpassword,beq_self_eq_true]
  have hrun : (login d email password ip ua).run World.perform w=
      ((assertNotLocked d .login (loginIdentifier d email ip)).bind fun _ =>
        (assertNotLocked d .loginAccount (d.lower email)).bind fun _ =>
          grantAccess d user (d.lower email) (loginIdentifier d email ip) ip ua).run World.perform w := by
    simp only [login,Program.monad_bind,Program.run_bind,hload,hblocked,hok,hactive,
      Bool.not_true,Bool.false_eq_true,if_false]
    rfl
  unfold Yields Program.Ensures
  rw [hrun,Program.run_bind]
  cases hfirst : lockedAt w (lockKey d .login (loginIdentifier d email ip)) with
  | true =>
    obtain ⟨message,w',hlock⟩ := run_assertNotLocked_locked hfirst
    rw [hlock]
    refine ⟨by rintro ⟨_,⟨⟩⟩,fun h => ?_⟩
    exact absurd (hfirst.symm.trans h.1.1) (by decide)
  | false =>
    rw [run_assertNotLocked hfirst]
    dsimp only
    rw [Program.run_bind]
    cases hsecond : lockedAt (World.elapsed w) (lockKey d .loginAccount (d.lower email)) with
    | true =>
      obtain ⟨message,w',hlock⟩ := run_assertNotLocked_locked hsecond
      rw [hlock]
      refine ⟨by rintro ⟨_,⟨⟩⟩,fun h => ?_⟩
      exact absurd (hsecond.symm.trans h.1.2) (by decide)
    | false =>
      rw [run_assertNotLocked hsecond]
      have hgrant : Yields (grantAccess d user (d.lower email) (loginIdentifier d email ip) ip ua)
          (World.elapsed (World.elapsed w)) fun o _ =>
            (∃ pair, o=.ok ⟨false,none,some pair⟩) ↔ (fits 64 ip && fits 512 ua)=true :=
        yields_grantAccess user hfactor _ _ (hsound (hsound hw))
      rw [Bool.and_eq_true] at hgrant
      exact hgrant.trans ⟨fun h => ⟨⟨hfirst,hsecond⟩,h⟩,fun h => h.2⟩

end SignIns

section Runs

/-- No password check of a sign-in fails for the account, and no other reset
of it completes. -/
def Undisturbed (d : Deployment) (stored : String) (_ : Trace) (s : ServerState) : Input → Prop
  | .call client choices =>
    (∀ email password user w, client.request=.login email password → account d email=stored →
      ¬CheckFails d s email password client.ipAddress choices user w) ∧
    ∀ email code password, client.request=.resetPassword email code password →
      account d email=stored → (s.serve d client choices).1≠.ok .done
  | _ => True

/-- Every undisturbed input keeps the account restored. -/
theorem restored_next {d : Deployment} {id : UUID} {stored password : String} {s : ServerState}
    {trace : Trace} {input : Input} (hs : Sound s.env s.db) (h : Restored s.db id stored password)
    (hu : Undisturbed d stored trace s input) : Restored (s.next d input).db id stored password := by
  cases input with
  | call client choices =>
    obtain ⟨hlogin,hreset⟩ := hu
    obtain ⟨request,ip,ua⟩ := client
    have hother : (∀ email password, request≠.login email password) →
        (∀ email code password, request≠.resetPassword email code password) →
        Restored (s.next d (.call ⟨request,ip,ua⟩ choices)).db id stored password := by
      intro h₁ h₂
      have hkeep : Yields (respond d ⟨request,ip,ua⟩) (s.world choices) fun _ w' =>
          RestoredWorld id stored password w' :=
        yields_restored (spared_respond d ⟨request,ip,ua⟩ h₁ h₂) ⟨h,h⟩
      exact hkeep.2
    cases request with
    | login email secret =>
      have hkept : Yields (login d email secret ip ua) (s.world choices) fun _ w' =>
          Restored w'.data.committed id stored password :=
        yields_login_kept (hs.unique .users) h fun he user w => hlogin email secret user w rfl he
      have hserve : Yields (respond d ⟨.login email secret,ip,ua⟩) (s.world choices) fun _ w' =>
          Restored w'.data.committed id stored password :=
        hkept.bind (fun _ _ h => h) fun _ _ h => h
      exact hserve
    | resetPassword email code newPassword =>
      have hkept : Yields (resetPassword d email code newPassword ip ua) (s.world choices)
          fun o w' => (o=.ok () ∧ account d email=stored) ∨
            Restored w'.data.committed id stored password :=
        yields_resetPassword_kept email code newPassword (hs.unique .users) ⟨h,h⟩
      have hserve : Yields (respond d ⟨.resetPassword email code newPassword,ip,ua⟩)
          (s.world choices) fun o w' => (o=.ok .done ∧ account d email=stored) ∨
            Restored w'.data.committed id stored password := by
        refine hkept.bind (fun _ _ h => ?_) fun _ _ h => ?_
        · exact h.imp_left fun ⟨_,he⟩ => ⟨rfl,he⟩
        · exact h.imp_left fun ⟨he,_⟩ => by cases he
      obtain ⟨hdone,he⟩|hkept := hserve
      · exact absurd hdone (hreset email code newPassword rfl he)
      · exact hkept
    | _ => exact hother (fun _ _ => nofun) fun _ _ _ => nofun
  | setActive userId active =>
    obtain ⟨row,hrow,hid,hemail,hpassword,hblocked⟩ := h
    refine ⟨_,List.mem_map.mpr ⟨row,hrow,rfl⟩,?_⟩
    split
    · exact ⟨hid,hemail,hpassword,hblocked⟩
    · exact ⟨hid,hemail,hpassword,hblocked⟩
  | elapse delay => exact h

/-- A sign-in returns tokens. -/
def SignsIn (d : Deployment) (s : ServerState) (email password : String) (ip ua : Option String)
    (choices : List ℕ) : Prop :=
  ∃ pair, (s.serve d ⟨.login email password,ip,ua⟩ choices).1=.ok (.login ⟨false,none,some pair⟩)

variable {d : Deployment} {s₁ s : ServerState} {email code newPassword : String}
  {ip₁ ua₁ : Option String} {choices₁ : List ℕ} {trace : Trace}

/-- A completed reset leaves a restored account. -/
theorem restored_of_reset (hs : Reachable d s₁)
    (hreset : (s₁.serve d ⟨.resetPassword email code newPassword,ip₁,ua₁⟩ choices₁).1=.ok .done) :
    ∃ id, Restored (s₁.next d (.call ⟨.resetPassword email code newPassword,ip₁,ua₁⟩ choices₁)).db
      id (account d email) newPassword := by
  have hrestore : Yields (respond d ⟨.resetPassword email code newPassword,ip₁,ua₁⟩)
      (s₁.world choices₁) fun o w' => o=.ok .done →
        ∃ id, Restored w'.data.committed id (account d email) newPassword := by
    have hcode : Yields (resetPassword d email code newPassword ip₁ ua₁) (s₁.world choices₁)
        fun o w' => o=.ok () → ∃ row∈s₁.db .users, row.email=account d email ∧
          Restored w'.data.committed row.id (account d email) newPassword :=
      yields_resetPassword email code newPassword (hs.sound.unique .users)
    refine hcode.bind (fun _ w' h _ => ?_) fun _ _ _ => nofun
    obtain ⟨row,_,_,hrow⟩ := h rfl
    exact ⟨row.id,hrow⟩
  exact hrestore hreset

/-- After a completed reset and an undisturbed run, a sign-in to the active
account without a second factor returns tokens exactly if neither lock of its
sign-in scopes is there and client address and client program fit. -/
theorem reset_restores_sign_in (hs : Reachable d s₁)
    (hreset : (s₁.serve d ⟨.resetPassword email code newPassword,ip₁,ua₁⟩ choices₁).1=.ok .done)
    (hrun : Runs d (Undisturbed d (account d email))
      (s₁.next d (.call ⟨.resetPassword email code newPassword,ip₁,ua₁⟩ choices₁)) trace s)
    {address : String} (haddress : account d address=account d email)
    (huser : ∀ row∈s.db .users, row.email=account d email →
      row.isActive=true ∧ row.twoFactorEnabled=false)
    (ip ua : Option String) (choices : List ℕ) :
    SignsIn d s address newPassword ip ua choices ↔
      Unlocked d address ip (s.world choices) ∧ fits 64 ip=true ∧ fits 512 ua=true := by
  obtain ⟨id,hrestored⟩ := restored_of_reset hs hreset
  have hkept := hrun.invariant (fun _ s => Sound s.env s.db ∧
      Restored s.db id (account d email) newPassword)
    ⟨sound_next d _ hs.sound,hrestored⟩
    fun _ _ input h hu => ⟨sound_next d input h.1,restored_next h.1 h.2 hu⟩
  obtain ⟨hsound,row,hrow,_,hemail,hpassword,hblocked⟩ := hkept
  obtain ⟨hactive,hfactor⟩ := huser row hrow hemail
  have hworld : SoundWorld (s.world choices) 0 := ⟨Nat.zero_le _,hsound,hsound⟩
  have hsign : Yields (login d address newPassword ip ua) (s.world choices) fun o _ =>
      (∃ pair, o=.ok ⟨false,none,some pair⟩) ↔
        Unlocked d address ip (s.world choices) ∧ fits 64 ip=true ∧ fits 512 ua=true :=
    yields_signIn hworld hrow (hemail.trans haddress.symm) hpassword hblocked hactive hfactor
  have hserve : Yields (respond d ⟨.login address newPassword,ip,ua⟩) (s.world choices) fun o _ =>
      (∃ pair, o=.ok (.login ⟨false,none,some pair⟩)) ↔
        Unlocked d address ip (s.world choices) ∧ fits 64 ip=true ∧ fits 512 ua=true := by
    refine hsign.bind (fun result _ h => ?_) fun _ _ h => ?_
    · refine Iff.trans ⟨fun ⟨pair,hp⟩ => ⟨pair,?_⟩,fun ⟨pair,hp⟩ => ⟨pair,?_⟩⟩ h
      · cases hp
        rfl
      · cases hp
        rfl
    · exact Iff.trans ⟨fun ⟨_,he⟩ => (nomatch he),fun ⟨_,he⟩ => (nomatch he)⟩ h
  exact hserve

end Runs

section Sample

/-- The sample account asks for a reset code. -/
def codeRequested (s : ServerState) : ServerState :=
  s.next sampleDeployment (.call (fromClient (.requestReset "a@b")) [])

/-- It uses the code, which is all zeros when the random number is. -/
def sampleReset : ClientRequest := fromClient (.resetPassword "a@b" "000000" "password2")

/-- A wrong password for the sample account. -/
def mistyped (s : ServerState) : ServerState :=
  s.next sampleDeployment (.call (fromClient (.login "a@b" "wrong")) [])

/-- The sample account signs in with its new password. -/
theorem reset_restores_sign_in_sample :
    SignsIn sampleDeployment ((codeRequested registeredServer).next sampleDeployment
      (.call sampleReset [])) "a@b" "password2" (some "1.2.3.4") none [] := by
  have hs : Reachable sampleDeployment (codeRequested registeredServer) :=
    ⟨_,_,_,.step _ (.step _ .refl trivial) trivial⟩
  refine (reset_restores_sign_in hs (by decide +kernel) .refl rfl ?_ _ _ _).mpr
    ⟨⟨by decide +kernel,by decide +kernel⟩,rfl,rfl⟩
  decide +kernel

/-- After a reset the lock of the address still stands in Redis. -/
theorem reset_keeps_locks : ∃ s₁, Reachable sampleDeployment s₁ ∧
    (s₁.serve sampleDeployment sampleReset []).1=.ok .done ∧
      (∀ row∈(s₁.next sampleDeployment (.call sampleReset [])).db .users,
        row.isActive=true ∧ row.twoFactorEnabled=false) ∧
      ¬SignsIn sampleDeployment (s₁.next sampleDeployment (.call sampleReset [])) "a@b" "password2"
        (some "1.2.3.4") none [] := by
  refine ⟨codeRequested (mistyped (mistyped registeredServer)),
    ⟨_,_,_,.step _ (.step _ (.step _ (.step _ .refl trivial) trivial) trivial) trivial⟩,
    by decide +kernel,by decide +kernel,?_⟩
  rintro ⟨pair,hpair⟩
  have hlocked : ((((codeRequested (mistyped (mistyped registeredServer))).next sampleDeployment
      (.call sampleReset [])).serve sampleDeployment (fromClient (.login "a@b" "password2")) []).1).isOk=
        false := by decide +kernel
  rw [show ((((codeRequested (mistyped (mistyped registeredServer))).next sampleDeployment
      (.call sampleReset [])).serve sampleDeployment (fromClient (.login "a@b" "password2")) []).1)=_
    from hpair] at hlocked
  cases hlocked

end Sample

end BackendPlatform.AccountRecovery
