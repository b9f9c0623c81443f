import BackendPlatform.RequestFrames

/-!
# Password resets

A completed reset changes the account, uses the code and closes every session
of one user, all in one commit; a refused one changes counters, locks and at
most the block on further resets. A requested code is stored under a hash of
its six digits alone, so a code that was ever issued cannot be issued again.
-/

set_option autoImplicit false

namespace BackendPlatform.PasswordResets

open ProgramTrees TransactionalTables ExpiringStore
open AuthRecords AuthEffects AuthRepositories AuthServices AuthFlows AuthFootprints
open ServerRuns ReachableStates FailedSignIns AccountRecovery SessionMarkers RequestFrames
open BruteForceProtectionService PasswordResetService

section Completions

variable {d : Deployment} {ip ua : Option String} {w w' : World}

/-- The endings of a refused reset. -/
inductive Refusal : Failure → Prop where
  /-- Too many failures. -/
  | locked (message : String) : Refusal (.accountLocked message)
  /-- The reset flow is blocked. -/
  | blocked (message : String) : Refusal (.passwordResetFlowBlocked message)
  /-- No such account or code, or a weak password. -/
  | badRequest (message : String) : Refusal (.badRequest message)

/-- The reset took place, for this account and nothing else. -/
structure Completed (w : World) (user : User) (record : PasswordResetToken) (newPassword : String)
    (w' : World) : Prop where
  /-- The account has the new password and is not blocked; no other account
  has changed. -/
  users : ∃ hash : PasswordHash,hash.text=newPassword ∧ ∃ f,
    w'.data.committed .users=(w.data.work .users).map f ∧
      f user={user with passwordHash := hash, loginBlocked := false, passwordResetBlocked := false} ∧
      ∀ u∈w.data.work .users,u.id≠user.id → f u=u
  /-- The presented code is used; no other code has changed. -/
  codes : ∃ now f,w'.data.committed .passwordResetTokens=(w.data.work .passwordResetTokens).map f ∧
    f record={record with usedAt := some now} ∧
      ∀ r∈w.data.work .passwordResetTokens,r.id≠record.id → f r=r
  /-- The tokens of the user are revoked; no other token has changed. -/
  tokens : ∃ f,tokensOf w'.data.committed=(tokensOf w.data.work).map f ∧
    ∀ r,(f r).userId=r.userId ∧ (r.userId=user.id → (f r).revokedAt≠none) ∧
      (r.userId≠user.id → f r=r)
  /-- The sessions of the user are revoked; no other session has changed. -/
  sessions : ∃ g,sessionsOf w'.data.committed=(sessionsOf w.data.work).map g ∧
    ∀ s,(g s).userId=s.userId ∧ (s.userId=user.id → (g s).revokedAt≠none) ∧
      (s.userId≠user.id → g s=s)
  /-- The active sessions are marked. -/
  marked : ∀ id∈activeIds w user.id,Marked w'.env id.str
  /-- No other marker changes. -/
  markers : ∀ sessionId,(∀ id∈activeIds w user.id,sessionId≠id.str) →
    w'.env.redis (marker sessionId)=w.env.redis (marker sessionId)
  /-- Second factors are as they were. -/
  secrets : w'.data.committed .twoFactorSecrets=w.data.work .twoFactorSecrets
  /-- Backup codes are as they were. -/
  backups : w'.data.committed .backupCodes=w.data.work .backupCodes

/-- Only counters, locks and the block on resets may have changed. -/
structure Refused (address : String) (w w' : World) : Prop where
  /-- At most the account's resets have been blocked. -/
  users : ∃ f,w'.data.committed .users=(w.data.work .users).map f ∧
    ∀ u∈w.data.work .users,f u=u ∨ u.email=address ∧ f u={u with passwordResetBlocked := true}
  /-- Every other table is as it was. -/
  tables : ∀ t,t≠.users → w'.data.committed t=w.data.work t
  /-- Every other key is as it was. -/
  keys : ∀ key,area key∉[Area.counter,.lock] → w'.env.redis key=w.env.redis key

/-- Nothing but counters and locks has changed. -/
theorem Refused.of_leaves {address : String} (hsame : w.data.committed=w.data.work)
    (h : Leaves [] [.counter,.lock] w w') : Refused address w w' := by
  have htables : ∀ t,w'.data.committed t=w.data.work t := by
    intro t
    rw [h.committed,hsame]
  refine ⟨⟨fun u => u,?_,fun _ _ => .inl rfl⟩,fun t _ => htables t,h.keys⟩
  rw [List.map_id',htables]

/-- Checks before a refusal change nothing else. -/
theorem Refused.before {address : String} {w₁ : World} (h : Leaves [] [.counter,.lock] w w₁)
    (hrefused : Refused address w₁ w') : Refused address w w' := by
  obtain ⟨husers,htables,hkeys⟩ := hrefused
  rw [h.data] at husers htables
  exact ⟨husers,htables,fun key hkey => (hkeys key hkey).trans (h.keys key hkey)⟩

/-- Checks before a reset change nothing else. -/
theorem Completed.before {user : User} {record : PasswordResetToken} {newPassword : String}
    {w₁ : World} (h : Leaves [] [.counter,.lock] w w₁)
    (hcompleted : Completed w₁ user record newPassword w') :
    Completed w user record newPassword w' := by
  obtain ⟨husers,hcodes,htokens,hsessions,hmarked,hmarkers,hsecrets,hbackups⟩ := hcompleted
  have hactive : activeIds w₁ user.id=activeIds w user.id := by
    unfold activeIds
    rw [h.data]
  rw [h.data] at husers hcodes htokens hsessions hsecrets hbackups
  rw [hactive] at hmarked hmarkers
  refine ⟨husers,hcodes,htokens,hsessions,hmarked,fun sessionId hne => ?_,hsecrets,hbackups⟩
  rw [hmarkers sessionId hne,h.keys (marker sessionId) (by simp [area])]

/-- A flush rewrites its row or raises. -/
theorem yields_flushed (t : Table) (q : Row t → Bool) (f : Row t → Row t) (w : World) :
    Yields (flushUpdate t q f) w fun o w' => (o=.ok () ∨ o=.error .staleData) ∧
      Leaves [t] [] w w' ∧ w'.data.work t=(w.data.work t).map fun r => if q r then f r else r := by
  have hleaves := yields_leaves [t] [] (inside_flushUpdate t q f) (by simp [Within]) w
  have hrows : Yields (flushUpdate t q f) w fun _ w' =>
      w'.data.work t=(w.data.work t).map fun r => if q r then f r else r := by
    refine (SessionMarkers.yields_flushUpdate t q f w).mono fun _ w' h => ?_
    rw [h]
    exact Transaction.write_work_self w.data t _
  have hends : Yields (flushUpdate t q f) w fun o _ => o=.ok () ∨ o=.error .staleData := by
    have hupdate : Yields (updateRows t q f) w fun o _ => ∃ n,o=.ok n := ⟨_,rfl⟩
    refine hupdate.bind (fun n w' _ => ?_) fun e w' h => absurd h (by rintro ⟨_,hok⟩; cases hok)
    show Yields (if n=1 then _ else _) _ _
    split
    · exact .inl rfl
    · exact .inr rfl
  exact hends.and (hleaves.and hrows)

/-- A refused code counts two failures and may block the account's resets. -/
theorem yields_refusedCode (identifier email address : String) (user : Option LoadedUser)
    (hsame : w.data.committed=w.data.work)
    (huser : ∀ loaded,user=some loaded → ∀ u∈w.data.work .users,u.id=loaded.row.id →
      u.email=address) :
    Yields (refuseCode d identifier email user) w fun o w' => (∃ e,o=.error e) ∧
      Refused address w w' := by
  have hcount : ∀ scope identifier w,Yields (recordFailure d scope identifier) w fun _ w' =>
      Leaves [] [.counter,.lock] w w' := fun scope identifier w =>
    yields_leaves [] [.counter,.lock] (inside_recordFailure d scope identifier) (by decide) w
  have hrecord : Yields (recordResetFailure d identifier email user) w fun _ w' =>
      Refused address w w' := by
    refine (hcount _ _ w).bind (fun _ w₁ h₁ => ?_) fun e w₁ h₁ => .of_leaves hsame h₁
    refine (hcount _ _ w₁).bind (fun attempts w₂ h₂ => ?_) fun e w₂ h₂ =>
      .of_leaves hsame (h₁.trans h₂)
    have hleaves := h₁.trans h₂
    cases user with
    | none => exact .of_leaves hsame hleaves
    | some loaded =>
      show Yields (if _ then _ else _) _ _
      split
      · -- the last failure blocks further resets and is committed at once
        refine (yields_flushed .users (fun u : User => u.id==loaded.row.id) (fun u =>
          {u with passwordResetBlocked := true}) w₂).bind (fun _ w₃ h₃ => ?_) fun e w₃ h₃ => ?_
        · obtain ⟨_,hleaves₃,hrows⟩ := h₃
          refine (yields_commit w₃).bind (fun _ w₄ h₄ => ?_) fun e w₄ h₄ => absurd h₄.1 nofun
          obtain ⟨_,henv,hdata⟩ := h₄
          have hcommitted : w₄.data.committed=w₃.data.work := congrArg Transaction.committed hdata
          have htables : ∀ t,t≠.users → w₄.data.committed t=w.data.work t := by
            intro t ht
            rw [hcommitted,hleaves₃.tables t (by simpa using ht),hleaves.tables t nofun]
          have hkeys : ∀ key,area key∉[Area.counter,.lock] →
              w₄.env.redis key=w.env.redis key := by
            intro key hkey
            rw [henv,hleaves₃.keys key (List.not_mem_nil),hleaves.keys key hkey]
          have husers : w₄.data.committed .users=(w.data.work .users).map fun u : User =>
              if u.id==loaded.row.id then {u with passwordResetBlocked := true} else u := by
            rw [hcommitted,hrows,hleaves.tables .users nofun]
          refine ⟨⟨_,husers,fun u hu => ?_⟩,htables,hkeys⟩
          by_cases hid : u.id=loaded.row.id
          · exact .inr ⟨huser loaded rfl u hu hid,if_pos (by simpa using hid)⟩
          · exact .inl (if_neg (by simpa using hid))
        · have hleaves₃ : Leaves [.users] [.counter,.lock] w w₃ :=
            (hleaves.widen (by decide) (by decide)).trans (h₃.2.1.widen (by decide) (by decide))
          have htables : ∀ t,w₃.data.committed t=w.data.work t := by
            intro t
            rw [hleaves₃.committed,hsame]
          refine ⟨⟨fun u => u,?_,fun _ _ => .inl rfl⟩,fun t _ => htables t,hleaves₃.keys⟩
          rw [List.map_id',htables]
      · exact .of_leaves hsame hleaves
  refine hrecord.bind (fun _ w₁ h₁ => ?_) fun e w₁ h₁ => ⟨⟨e,rfl⟩,h₁⟩
  exact ⟨⟨_,rfl⟩,h₁⟩

/-- What the statements of a completed reset have done. -/
structure Written (w : World) (user : LoadedUser) (record : PasswordResetToken) (now : Instant)
    (hash : PasswordHash) (w' : World) : Prop where
  /-- Only these tables and keys have changed. -/
  leaves : Leaves [.users,.passwordResetTokens,.refreshTokens,.userSessions,.auditEvents]
    [.marker,.counter,.lock] w w'
  /-- The account. -/
  users : w'.data.work .users=(w.data.work .users).map fun u : User =>
    if u.id==user.row.id then {u with
      passwordHash := hash
      loginBlocked := if user.row.loginBlocked then false else u.loginBlocked} else u
  /-- The codes. -/
  codes : w'.data.work .passwordResetTokens=
    (w.data.work .passwordResetTokens).map fun r : PasswordResetToken =>
      if r.id==record.id then {r with usedAt := some now} else r
  /-- The tokens. -/
  tokens : ∃ now,tokensOf w'.data.work=(tokensOf w.data.work).map
    (revokedToken (fun r => r.userId==user.row.id) now "password_reset")
  /-- The sessions. -/
  sessions : ∃ now,sessionsOf w'.data.work=(sessionsOf w.data.work).map
    (revokedSession (fun s => s.userId==user.row.id) now)
  /-- The new markers. -/
  marked : ∀ id∈activeIds w user.row.id,Marked w'.env id.str
  /-- The other markers. -/
  markers : ∀ sessionId,(∀ id∈activeIds w user.row.id,sessionId≠id.str) →
    w'.env.redis (marker sessionId)=w.env.redis (marker sessionId)

/-- A committed reset is complete. -/
theorem Written.completed {user : LoadedUser} {record : PasswordResetToken} {now : Instant}
    {hash : PasswordHash} {newPassword : String} {w'' : World}
    (h : Written w user record now hash w') (htext : hash.text=newPassword)
    (henv : w''.env=w'.env) (hcommitted : w''.data.committed=w'.data.work)
    (hunblocked : user.row.passwordResetBlocked=false) :
    Completed w user.row record newPassword w'' := by
  obtain ⟨hleaves,husers,hcodes,⟨now₁,htokens⟩,⟨now₂,hsessions⟩,hmarked,hmarkers⟩ := h
  have htable : ∀ t,t∉[Table.users,.passwordResetTokens,.refreshTokens,.userSessions,.auditEvents] →
      w''.data.committed t=w.data.work t := by
    intro t ht
    rw [hcommitted,hleaves.tables t ht]
  have hmark : ∀ id∈activeIds w user.row.id,Marked w''.env id.str := by
    intro id hid
    unfold Marked
    rw [henv]
    exact hmarked id hid
  have hrest : ∀ sessionId,(∀ id∈activeIds w user.row.id,sessionId≠id.str) →
      w''.env.redis (marker sessionId)=w.env.redis (marker sessionId) := by
    intro sessionId hne
    rw [henv,hmarkers sessionId hne]
  rw [← hcommitted] at husers hcodes htokens hsessions
  refine ⟨⟨hash,htext,_,husers,?_,fun u _ hne => if_neg (by simpa using hne)⟩,
    ⟨now,_,hcodes,if_pos (by simp),fun r _ hne => if_neg (by simpa using hne)⟩,
    ⟨_,htokens,fun r => ⟨revokedToken_userId,fun hr => revokedToken_revoked (by simp [hr]),
      fun hr => revokedToken_same (.inl (by simpa using hr))⟩⟩,
    ⟨_,hsessions,fun s => ⟨revokedSession_userId,fun hs => revokedSession_revoked (by simp [hs]),
      fun hs => revokedSession_same (.inl (by simpa using hs))⟩⟩,
    hmark,hrest,htable _ (by decide),htable _ (by decide)⟩
  -- the block on sign-ins is lifted when it was loaded, the block on resets was absent
  rw [if_pos (by simp)]
  cases hblocked : user.row.loginBlocked <;> simp [hunblocked]

/-- Password and code are flushed. -/
structure Replaced (w : World) (user : LoadedUser) (record : PasswordResetToken) (now : Instant)
    (hash : PasswordHash) (w' : World) : Prop where
  /-- Only their tables have changed. -/
  leaves : Leaves [.users,.passwordResetTokens] [] w w'
  /-- The account. -/
  users : w'.data.work .users=(w.data.work .users).map fun u : User =>
    if u.id==user.row.id then {u with
      passwordHash := hash
      loginBlocked := if user.row.loginBlocked then false else u.loginBlocked} else u
  /-- The codes. -/
  codes : w'.data.work .passwordResetTokens=
    (w.data.work .passwordResetTokens).map fun r : PasswordResetToken =>
      if r.id==record.id then {r with usedAt := some now} else r

/-- The tokens and sessions of the user are revoked, the sessions are marked,
and the reset is recorded. -/
structure Closed (w : World) (userId : UUID) (w' : World) : Prop where
  /-- Only these tables and keys have changed. -/
  leaves : Leaves [.refreshTokens,.userSessions,.auditEvents] [.marker,.counter,.lock] w w'
  /-- The tokens. -/
  tokens : ∃ now,tokensOf w'.data.work=(tokensOf w.data.work).map
    (revokedToken (fun r => r.userId==userId) now "password_reset")
  /-- The sessions. -/
  sessions : ∃ now,sessionsOf w'.data.work=(sessionsOf w.data.work).map
    (revokedSession (fun s => s.userId==userId) now)
  /-- The new markers. -/
  marked : ∀ id∈activeIds w userId,Marked w'.env id.str
  /-- The other markers. -/
  markers : ∀ sessionId,(∀ id∈activeIds w userId,sessionId≠id.str) →
    w'.env.redis (marker sessionId)=w.env.redis (marker sessionId)

variable {user : LoadedUser} {record : PasswordResetToken} {now : Instant} {hash : PasswordHash}
  {k : Action Unit} {Q : Except Failure Unit → World → Prop}

/-- The two parts of a reset are what its statements do. -/
theorem Replaced.written {w₁ : World} (h : Replaced w user record now hash w₁)
    (hclosed : Closed w₁ user.row.id w') : Written w user record now hash w' := by
  have htokens : tokensOf w₁.data.work=tokensOf w.data.work :=
    h.leaves.tables .refreshTokens (by decide)
  have hsessions : sessionsOf w₁.data.work=sessionsOf w.data.work :=
    h.leaves.tables .userSessions (by decide)
  have hactive : activeIds w₁ user.row.id=activeIds w user.row.id := by
    unfold activeIds
    rw [hsessions]
  refine ⟨(h.leaves.widen (by decide) (by decide)).trans (hclosed.leaves.widen (by decide)
    (by decide)),?_,?_,htokens ▸ hclosed.tokens,hsessions ▸ hclosed.sessions,
    hactive ▸ hclosed.marked,fun sessionId hne => ?_⟩
  · rw [hclosed.leaves.tables .users (by decide),h.users]
  · rw [hclosed.leaves.tables .passwordResetTokens (by decide),h.codes]
  · rw [hclosed.markers sessionId (hactive ▸ hne),h.leaves.keys _ (List.not_mem_nil)]

/-- The flush of password and code. -/
theorem yields_replaced (hdone : ∀ w',Replaced w user record now hash w' → Yields k w' Q)
    (hstale : ∀ w',Q (.error .staleData) w') :
    Yields ((UserRepository.flushUpdatePassword user hash).bind fun _ =>
      (PasswordResetRepository.flushUsed record now).bind fun _ => k) w Q := by
  have hlost : ∀ {e : Failure} {w' : World},(Except.error e : Except Failure Unit)=.ok () ∨
      (Except.error e : Except Failure Unit)=.error .staleData → Q (.error e) w' := by
    rintro e w' (hok | hfailed)
    · cases hok
    · obtain rfl := Except.error.inj hfailed
      exact hstale w'
  refine (yields_flushed .users (fun u : User => u.id==user.row.id) (fun u => {u with
    passwordHash := hash
    loginBlocked := if user.row.loginBlocked then false else u.loginBlocked}) w).bind
    (fun _ w₁ h₁ => ?_) fun e w₁ h₁ => hlost h₁.1
  obtain ⟨_,hleaves₁,husers⟩ := h₁
  refine (yields_flushed .passwordResetTokens (fun r : PasswordResetToken => r.id==record.id)
    (fun r => {r with usedAt := some now}) w₁).bind (fun _ w₂ h₂ => ?_) fun e w₂ h₂ => hlost h₂.1
  obtain ⟨_,hleaves₂,hcodes⟩ := h₂
  refine hdone w₂ ⟨(hleaves₁.widen (by decide) (by decide)).trans
    (hleaves₂.widen (by decide) (by decide)),?_,?_⟩
  · rw [hleaves₂.tables .users (by decide),husers]
  · rw [hcodes,hleaves₁.tables .passwordResetTokens (by decide)]

/-- The end of every session of the user. -/
theorem yields_closed (userId : UUID) (identifier email : String)
    (hdone : ∀ w',Closed w userId w' → Yields k w' Q)
    (hlost : ∀ w',Q (.error .dataError) w') :
    Yields ((SessionRepository.listActiveSessionIdsForUser userId).bind fun ids =>
      (RefreshTokenRepository.revokeAllForUser userId "password_reset").bind fun _ =>
      (SessionRepository.revokeUserSessions userId).bind fun _ =>
      (markAccessSessionsRevoked d ids).bind fun _ =>
      (clearFailures d .passwordReset identifier).bind fun _ =>
      (clearFailures d .passwordResetAccount email).bind fun _ =>
      (AuditService.logEvent d "auth.password_reset.completed" "success" (some userId)
        (some userId) ip ua []).bind fun _ => k) w Q := by
  have hlist : Yields (SessionRepository.listActiveSessionIdsForUser userId) w fun o w' =>
      o=.ok (activeIds w userId) ∧ w'=w := ⟨rfl,rfl⟩
  refine hlist.bind (fun ids w₁ h₁ => ?_) fun e w₁ h₁ => absurd h₁.1 nofun
  obtain ⟨hids,rfl⟩ := h₁
  obtain rfl := Except.ok.inj hids
  refine (yields_revokedTokens (fun r => r.userId==userId) "password_reset" w₁).bind
    (fun _ w₂ h₂ => ?_) fun e w₂ h₂ => absurd h₂.1 nofun
  obtain ⟨_,hleaves₂,htokens₂⟩ := h₂
  refine (yields_revokedSessions (fun s => s.userId==userId) w₂).bind
    (fun _ w₃ h₃ => ?_) fun e w₃ h₃ => absurd h₃.1 nofun
  obtain ⟨_,hleaves₃,hsessions₃⟩ := h₃
  refine ((yields_markedAll (activeIds w₁ userId) w₃).and
    (yields_leaves [] [.marker] (inside_markAccessSessionsRevoked d _) (by decide) w₃)).bind
    (fun _ w₄ h₄ => ?_) fun e w₄ h₄ => absurd h₄.1.1 nofun
  obtain ⟨⟨_,_,hmarked₄,hothers₄⟩,hleaves₄⟩ := h₄
  have hclear : ∀ scope identifier w,Yields (clearFailures d scope identifier) w fun o w' =>
      o=.ok () ∧ Leaves [] [.counter,.lock] w w' := by
    intro scope identifier w
    have hok : Yields (clearFailures d scope identifier) w fun o _ => o=.ok () := rfl
    exact hok.and
      (yields_leaves [] [.counter,.lock] (inside_clearFailures d scope identifier) (by decide) w)
  refine (hclear .passwordReset identifier w₄).bind (fun _ w₅ h₅ => ?_)
    fun e w₅ h₅ => absurd h₅.1 nofun
  refine (hclear .passwordResetAccount email w₅).bind (fun _ w₆ h₆ => ?_)
    fun e w₆ h₆ => absurd h₆.1 nofun
  refine (yields_audited "auth.password_reset.completed" "success" (some userId) [] w₆).bind
    (fun _ w₇ h₇ => ?_) fun e w₇ h₇ => ?_
  · rcases h₇ with ⟨_,_,hleaves₇,_⟩ | ⟨_,he,_⟩
    · -- what each part leaves alone, from its world on
      have hafter₄ : Leaves [.auditEvents] [.counter,.lock] w₄ w₇ :=
        ((h₅.2.trans h₆.2).widen (by decide) (by decide)).trans
          (hleaves₇.widen (by decide) (by decide))
      have hafter₃ : Leaves [.auditEvents] [.marker,.counter,.lock] w₃ w₇ :=
        (hleaves₄.widen (by decide) (by decide)).trans (hafter₄.widen (by decide) (by decide))
      have hafter₂ : Leaves [.userSessions,.auditEvents] [.marker,.counter,.lock] w₂ w₇ :=
        (hleaves₃.widen (by decide) (by decide)).trans (hafter₃.widen (by decide) (by decide))
      have hbefore₃ : Leaves [.refreshTokens,.userSessions] [] w₁ w₃ :=
        (hleaves₂.widen (by decide) (by decide)).trans (hleaves₃.widen (by decide) (by decide))
      refine hdone w₇ ⟨(hleaves₂.widen (by decide) (by decide)).trans
        (hafter₂.widen (by decide) (by decide)),?_,?_,fun id hid => ?_,fun sessionId hne => ?_⟩
      · have htokens : tokensOf w₇.data.work=tokensOf w₂.data.work :=
          hafter₂.tables .refreshTokens (by decide)
        rw [htokens]
        exact htokens₂
      · have hsessions : sessionsOf w₇.data.work=sessionsOf w₃.data.work :=
          hafter₃.tables .userSessions (by decide)
        have hsessions₂ : sessionsOf w₂.data.work=sessionsOf w₁.data.work :=
          hleaves₂.tables .userSessions (by decide)
        rw [hsessions,← hsessions₂]
        exact hsessions₃
      · have hkey := hafter₄.keys (marker id.str) (by simp [area])
        exact fun hnone => hmarked₄ id hid (hkey.symm.trans hnone)
      · have hkey : ∀ id∈activeIds w₁ userId,marker sessionId≠marker id.str := by
          intro id hid he
          exact hne id hid (RedisKey.accessSessionRevoked.inj he)
        rw [hafter₄.keys (marker sessionId) (by simp [area]),hothers₄ _ hkey,
          hbefore₃.keys _ (List.not_mem_nil)]
    · exact absurd he nofun
  · rcases h₇ with ⟨_,hok,_⟩ | ⟨_,he,_⟩
    · exact absurd hok nofun
    · obtain rfl := Except.error.inj he
      exact hlost w₇

/-- How a reset that reached its last part ends. -/
theorem yields_passwordChanged (user : LoadedUser) (record : PasswordResetToken) (now : Instant)
    (newPassword identifier email address : String) (hsame : w.data.committed=w.data.work)
    (hunblocked : user.row.passwordResetBlocked=false) :
    Yields (changePassword d user record now newPassword identifier email ip ua) w fun o w' =>
      (o=.ok () → Completed w user.row record newPassword w') ∧
        ∀ e,o=.error e → Refusal e → Refused address w w' := by
  have hhash := (yields_leaves [] [] (inside_hashPassword d newPassword) (by decide) w).and
    (AccountRecovery.yields_hashPassword newPassword w)
  have hend : ∀ {e : Failure} {w' : World},¬Refusal e →
      ((Except.error e : Except Failure Unit)=.ok () →
        Completed w user.row record newPassword w') ∧
      ∀ e',(Except.error e : Except Failure Unit)=.error e' → Refusal e' →
        Refused address w w' := by
    refine fun hno => ⟨nofun,fun e' he hrefusal => ?_⟩
    exact absurd (Except.error.inj he ▸ hrefusal) hno
  refine hhash.bind (fun hash w₁ h₁ => ?_) fun e w₁ h₁ => ?_
  · obtain ⟨hleaves₁,_,htext⟩ := h₁
    refine yields_replaced (fun w₂ h₂ => ?_) fun _ => hend nofun
    refine yields_closed user.row.id identifier email (fun w₃ h₃ => ?_) fun _ => hend nofun
    have hreplaced : Replaced w user record now hash w₂ := by
      refine ⟨(hleaves₁.widen (by decide) (by decide)).trans h₂.leaves,?_,?_⟩
      · rw [h₂.users,hleaves₁.tables .users (by decide)]
      · rw [h₂.codes,hleaves₁.tables .passwordResetTokens (by decide)]
    refine (yields_commit w₃).mono fun o w₄ h₄ => ?_
    obtain ⟨rfl,henv,hdata⟩ := h₄
    exact ⟨fun _ => (hreplaced.written h₃).completed (htext hash rfl) henv
      (congrArg Transaction.committed hdata) hunblocked,fun _ => nofun⟩
  · refine ⟨nofun,fun e' he _ => ?_⟩
    exact .of_leaves hsame (h₁.1.widen (by decide) (by decide))

/-- The row a code belongs to. -/
structure CodeRow (d : Deployment) (w : World) (code : String) (user : User)
    (record : PasswordResetToken) : Prop where
  /-- It is stored. -/
  stored : record∈w.data.work .passwordResetTokens
  /-- It is the row of the code. -/
  tokenHash : record.tokenHash=hashToken d code
  /-- It belongs to the account. -/
  userId : record.userId=user.id
  /-- It is unused. -/
  unused : record.usedAt=none

/-- A completed reset of an account with one of its codes. -/
def ResetDone (d : Deployment) (w : World) (email code newPassword : String) (w' : World) : Prop :=
  ∃ user∈w.data.work .users,user.email=account d email ∧
    ∃ record,CodeRow d w code user record ∧ Completed w user record newPassword w'

/-- The code of an account is looked up. -/
theorem yields_codeRow (user : User) (code : String) (w : World) :
    Yields (PasswordResetRepository.getActiveForUserByHash user.id (hashToken d code)) w
      fun o w' => w'=w ∧ ∀ record,o=.ok (some record) → CodeRow d w code user record := by
  have hspec := yields_scalarOneOrNone ((w.data.work .passwordResetTokens).filter
    fun r : PasswordResetToken => r.tokenHash==hashToken d code &&
      r.userId==user.id && r.usedAt.isNone) w
  refine ⟨hspec.1,fun record hr => ?_⟩
  obtain ⟨hmem,hq⟩ := List.mem_filter.mp (hspec.2.1 record hr)
  simp only [Bool.and_eq_true,beq_iff_eq,Option.isNone_iff_eq_none] at hq
  exact ⟨hmem,hq.1.1,hq.1.2,hq.2⟩

/-- A reset is complete, or refused without a trace but counters, locks and
the block on resets. -/
theorem yields_reset (email code newPassword : String) (hsame : w.data.committed=w.data.work)
    (hsound : Sound w.env w.data.work) :
    Yields (resetPassword d email code newPassword ip ua) w fun o w' =>
      (o=.ok () → ResetDone d w email code newPassword w') ∧
        ∀ e,o=.error e → Refusal e → Refused (account d email) w w' := by
  have hlock : ∀ scope identifier w,Yields (assertNotLocked d scope identifier) w fun _ w' =>
      Leaves [] [.counter,.lock] w w' := fun scope identifier w =>
    yields_leaves [] [.counter,.lock] (inside_assertNotLocked d scope identifier) (by decide) w
  have hrefused : ∀ {w' : World} {e : Failure},Leaves [] [.counter,.lock] w w' →
      ((Except.error e : Except Failure Unit)=.ok () →
        ResetDone d w email code newPassword w') ∧
      ∀ e',(Except.error e : Except Failure Unit)=.error e' → Refusal e' →
        Refused (account d email) w w' :=
    fun hleaves => ⟨by rintro ⟨⟩,fun _ _ _ => .of_leaves hsame hleaves⟩
  refine (hlock _ _ w).bind (fun _ w₁ h₁ => ?_) fun e w₁ h₁ => hrefused h₁
  refine (hlock _ _ w₁).bind (fun _ w₂ h₂ => ?_) fun e w₂ h₂ => hrefused (h₁.trans h₂)
  refine (yields_load _ w₂).bind (fun found w₃ h₃ => ?_) fun e w₃ h₃ =>
    hrefused (h₃.1 ▸ h₁.trans h₂)
  obtain ⟨rfl,hfound⟩ := h₃
  have hleaves := h₁.trans h₂
  have hdata := hleaves.data
  have hrefuse : ∀ user : Option LoadedUser,∀ w',Leaves [] [.counter,.lock] w w' →
      (∀ loaded,user=some loaded → loaded.row∈w.data.work .users ∧
        loaded.row.email=account d email) →
      Yields (refuseCode d (d.lower email++":"++orUnknown ip) (d.lower email) user) w'
        fun o w'' => (o=.ok () → ResetDone d w email code newPassword w'') ∧
          ∀ e,o=.error e → Refusal e → Refused (account d email) w w'' := by
    intro user w' hw' huser
    have hsame' : w'.data.committed=w'.data.work := by
      rw [hw'.data]
      exact hsame
    refine (yields_refusedCode _ _ (account d email) user hsame' fun loaded hloaded u hu hid => ?_).mono
      fun o w'' hend => ?_
    · obtain ⟨hstored,hemail⟩ := huser loaded hloaded
      rw [hw'.data] at hu
      have hone : u=loaded.row := eq_of_conflict (hsound.unique .users) hu hstored
        (by simp [conflict,hid])
      rw [hone]
      exact hemail
    · obtain ⟨⟨e,rfl⟩,hend⟩ := hend
      exact ⟨by rintro ⟨⟩,fun _ _ _ => hend.before hw'⟩
  cases found with
  | none => exact hrefuse none w₃ hleaves (by rintro _ ⟨⟩)
  | some user =>
    obtain ⟨hstored,hemail⟩ := hfound user rfl
    have hemail : user.row.email=account d email := beq_iff_eq.mp hemail
    have haccount : user.row∈w.data.work .users := hdata ▸ hstored
    have huser : ∀ loaded,some user=some loaded → loaded.row∈w.data.work .users ∧
        loaded.row.email=account d email := by
      rintro loaded hloaded
      obtain rfl := Option.some.inj hloaded
      exact ⟨haccount,hemail⟩
    simp only [Program.monad_throw,Program.monad_bind]
    split
    · exact hrefused hleaves
    · rename_i hunblocked
      refine (yields_codeRow user.row code w₃).bind (fun found w₄ h₄ => ?_) fun e w₄ h₄ =>
        hrefused (h₄.1 ▸ hleaves)
      obtain ⟨rfl,hrow⟩ := h₄
      cases found with
      | none => exact hrefuse _ w₄ hleaves huser
      | some record =>
        obtain ⟨hmem,hhash,howner,hunused⟩ := hrow record rfl
        have hrow : CodeRow d w code user.row record := ⟨hdata ▸ hmem,hhash,howner,hunused⟩
        dsimp only
        split
        · exact hrefuse _ w₄ hleaves huser
        · refine (yields_leaves [] [.counter,.lock] inside_utcNow (by decide) w₄).bind
            (fun now w₅ h₅ => ?_) fun e w₅ h₅ => hrefused (hleaves.trans h₅)
          have hleaves₅ := hleaves.trans h₅
          split
          · exact hrefuse _ w₅ hleaves₅ huser
          · have hsame₅ : w₅.data.committed=w₅.data.work := by
              rw [hleaves₅.data]
              exact hsame
            refine (yields_passwordChanged user record now newPassword _ _ (account d email) hsame₅
              (by simpa using hunblocked)).mono fun o w₆ hend => ?_
            obtain ⟨hok,herror⟩ := hend
            exact ⟨fun he => ⟨user.row,haccount,hemail,record,hrow,(hok he).before hleaves₅⟩,
              fun e he hr => (herror e he hr).before hleaves₅⟩

/-- A reset that succeeds replaces the password, uses the code and closes
every session of its user and of no one else; a reset that is refused leaves
everything but counters, locks and the block on resets as it was. -/
theorem reset_all_or_nothing (d : Deployment) (s : ServerState) (choices : List ℕ)
    (email code newPassword : String) (ip ua : Option String) (hsound : Sound s.env s.db) :
    (((resetPassword d email code newPassword ip ua).run World.perform (s.world choices)).1=.ok () →
      ResetDone d (s.world choices) email code newPassword
        ((resetPassword d email code newPassword ip ua).run World.perform (s.world choices)).2) ∧
    ∀ e,((resetPassword d email code newPassword ip ua).run World.perform (s.world choices)).1=
        .error e → Refusal e →
      Refused (account d email) (s.world choices)
        ((resetPassword d email code newPassword ip ua).run World.perform (s.world choices)).2 :=
  yields_reset (w := s.world choices) email code newPassword rfl hsound

/-- An account resets its password with the code it asked for. -/
theorem reset_all_or_nothing_sample :
    ResetDone sampleDeployment ((codeRequested registeredServer).world []) "a@b" "000000" "password2"
      ((resetPassword sampleDeployment "a@b" "000000" "password2" none none).run World.perform
        ((codeRequested registeredServer).world [])).2 := by
  have hreach : Reachable sampleDeployment (codeRequested registeredServer) :=
    ⟨_,_,_,.step _ (.step _ .refl trivial) trivial⟩
  have hok : ((resetPassword sampleDeployment "a@b" "000000" "password2" none none).run
      World.perform ((codeRequested registeredServer).world [])).1.isOk=true := by
    decide +kernel
  have hdone : ((resetPassword sampleDeployment "a@b" "000000" "password2" none none).run
      World.perform ((codeRequested registeredServer).world [])).1=.ok () := by
    cases hend : ((resetPassword sampleDeployment "a@b" "000000" "password2" none none).run
        World.perform ((codeRequested registeredServer).world [])).1 with
    | ok u => rfl
    | error e =>
      rw [hend] at hok
      cases hok
  exact (reset_all_or_nothing sampleDeployment (codeRequested registeredServer) [] "a@b" "000000"
    "password2" none none hreach.sound).1 hdone

end Completions

section Requests

variable {d : Deployment} {ip ua : Option String} {w w' : World} {row : User}

/-- The code a request draws. -/
def drawnCode (choices : List ℕ) : String := sixDigits (choices.headD 0%1000000)

/-- A request for a code by an account that may have one, with a mail server
that delivers. -/
structure Requestable (d : Deployment) (w : World) (email : String) (row : User) : Prop where
  /-- The account is stored. -/
  stored : row∈w.data.work .users
  /-- It has the address. -/
  email : row.email=account d email
  /-- Its resets are not blocked. -/
  unblocked : row.passwordResetBlocked=false
  /-- Mail is configured. -/
  smtp : d.settings.smtpIsConfigured=true
  /-- The message is sent. -/
  sent : Environment.delivery (w.choices.getD 3 0)=.returned (some true)

/-- A code of an account after a new one was requested. -/
def retired (userId : UUID) (now : Instant) (r : PasswordResetToken) : PasswordResetToken :=
  if r.userId==userId && r.usedAt.isNone then {r with usedAt := some now} else r

/-- The new code is stored, active, for the account, and its issue is
reported. -/
structure Issued (d : Deployment) (w : World) (row : User) (o : Except Failure Bool) (w' : World) :
    Prop where
  /-- The request reports a message. -/
  reported : o=.ok true
  /-- The row is committed, earlier ones of the account are retired. -/
  committed : ∃ record now,w'.data.committed .passwordResetTokens=
      (w.data.work .passwordResetTokens).map (retired row.id now)++[record] ∧
    record.userId=row.id ∧ record.tokenHash=hashToken d (drawnCode w.choices) ∧ record.usedAt=none

/-- The code was never issued before, to anyone. -/
def NewCode (d : Deployment) (w : World) : Prop :=
  ∀ r∈w.data.work .passwordResetTokens,r.tokenHash≠hashToken d (drawnCode w.choices)

/-- The client's address and program fit the columns, stripped and raw. -/
def Describable (d : Deployment) (ip ua : Option String) : Prop :=
  (fits 64 (some (normalizeOptional d ip)) && fits 512 (some (normalizeOptional d ua)))=true ∧
    Auditable ip ua

theorem retired_tokenHash (userId : UUID) (now : Instant) (r : PasswordResetToken) :
    (retired userId now r).tokenHash=r.tokenHash := by
  unfold retired
  split <;> rfl

theorem retired_id (userId : UUID) (now : Instant) (r : PasswordResetToken) :
    (retired userId now r).id=r.id := by
  unfold retired
  split <;> rfl

/-- The insertion of a row with a fresh id ends by its hash and its
description. -/
theorem yields_created (userId : UUID) (tokenHash : Hmac String) (expiresAt : Instant)
    (address program : String)
    (hdrawn : ∀ r∈w.data.work .passwordResetTokens,r.id.int<w.env.draws) :
    Yields (PasswordResetRepository.create userId tokenHash expiresAt address program) w
      fun o w' => (((∀ r∈w.data.work .passwordResetTokens,r.tokenHash≠tokenHash) ∧
          (fits 64 (some address) && fits 512 (some program))=true) ∧ o=.ok () ∧
        Leaves [.passwordResetTokens] [] w w' ∧ w'.choices=w.choices.tail ∧
        ∃ record : PasswordResetToken,w'.data.work .passwordResetTokens=
            w.data.work .passwordResetTokens++[record] ∧ record.userId=userId ∧
          record.tokenHash=tokenHash ∧ record.usedAt=none) ∨
      ¬((∀ r∈w.data.work .passwordResetTokens,r.tokenHash≠tokenHash) ∧
          (fits 64 (some address) && fits 512 (some program))=true) ∧ ∃ e,o=.error e := by
  have hdraw : Yields uuid4 w fun o w₁ => o=.ok ⟨w.env.draws⟩ ∧ w₁.data=w.data ∧
      w₁.env.redis=w.env.redis ∧ w₁.choices=w.choices.tail := ⟨rfl,rfl,rfl,rfl⟩
  refine hdraw.bind (fun id w₁ h₁ => ?_) fun e w₁ h₁ => absurd h₁.1 nofun
  obtain ⟨hid,hdata,hredis,hchoices⟩ := h₁
  obtain rfl := Except.ok.inj hid
  have hfree : (w₁.data.work .passwordResetTokens).any (conflict .passwordResetTokens
      ⟨⟨w.env.draws⟩,userId,tokenHash,some address,some program,expiresAt,none⟩)=false ↔
      ∀ r∈w.data.work .passwordResetTokens,r.tokenHash≠tokenHash := by
    rw [hdata,List.any_eq_false]
    constructor
    · intro h r hr hsame
      exact h r hr (by simp [conflict,hsame])
    · intro h r hr hconflict
      have hid : r.id≠⟨w.env.draws⟩ := by
        intro he
        have hlt := hdrawn r hr
        rw [he] at hlt
        exact absurd hlt (Nat.lt_irrefl _)
      simp only [conflict,Bool.or_eq_true,beq_iff_eq] at hconflict
      rcases hconflict with he | he
      · exact hid he.symm
      · exact h r hr he.symm
  refine (yields_inserted .passwordResetTokens
    ⟨⟨w.env.draws⟩,userId,tokenHash,some address,some program,expiresAt,none⟩ w₁).mono
    fun o w₂ h₂ => ?_
  rcases h₂ with ⟨⟨hvalid,hconflict⟩,hok,rfl⟩ | ⟨hno,herror⟩
  · have hrows := Transaction.write_work_self w₁.data .passwordResetTokens
      (w₁.data.work .passwordResetTokens++
        [⟨⟨w.env.draws⟩,userId,tokenHash,some address,some program,expiresAt,none⟩])
    rw [hdata] at hrows
    have hbefore : Leaves [.passwordResetTokens] [] w w₁ :=
      ⟨fun t _ => by rw [hdata],fun key _ => congrFun hredis key,by rw [hdata]⟩
    refine .inl ⟨⟨hfree.mp hconflict,hvalid⟩,hok,hbefore.trans (leaves_rewrite _ _ _),hchoices,
      ⟨⟨w.env.draws⟩,userId,tokenHash,some address,some program,expiresAt,none⟩,?_,rfl,rfl,rfl⟩
    rw [hdata]
    exact hrows
  · exact .inr ⟨fun h => hno ⟨h.2,hfree.mpr h.1⟩,herror⟩

/-- How a request for a code ends. -/
theorem yields_requestReset {email : String} (ip ua : Option String) (hsound : Sound w.env w.data.work)
    (h : Requestable d w email row) :
    Yields (requestReset d email ip ua) w fun o w' =>
      ((NewCode d w ∧ Describable d ip ua) ∧ Issued d w row o w') ∨
        ¬(NewCode d w ∧ Describable d ip ua) ∧ ∃ e,o=.error e := by
  obtain ⟨user,huser,hload⟩ := run_getByEmail (hsound.unique .users) h.stored h.email
  have hfound : Yields (UserRepository.getByEmail d (d.lower email)) w fun o w' =>
      o=.ok (some user) ∧ w'=w := by
    unfold Yields Program.Ensures
    rw [hload]
    exact ⟨rfl,rfl⟩
  refine hfound.bind (fun found w₀ h₀ => ?_) fun e w₀ h₀ => absurd h₀.1 nofun
  obtain ⟨hok,rfl⟩ := h₀
  obtain rfl := Except.ok.inj hok
  simp only [Program.monad_throw,Program.monad_bind,Program.raise_bind]
  rw [huser,if_neg (by simp [h.unblocked]),if_neg (by simp [h.smtp])]
  have hcode : Yields generateCode w₀ fun o w₁ => o=.ok (drawnCode w₀.choices) ∧
      w₁.data=w₀.data ∧ w₁.env=w₀.env ∧ w₁.choices=w₀.choices.tail := ⟨rfl,rfl,rfl,rfl⟩
  refine hcode.bind (fun code w₁ h₁ => ?_) fun e w₁ h₁ => absurd h₁.1 nofun
  obtain ⟨hok,hdata₁,henv₁,hchoices₁⟩ := h₁
  obtain rfl := Except.ok.inj hok
  have hnow : Yields utcNow w₁ fun o w₂ => (∃ now,o=.ok now) ∧ w₂.data=w₁.data ∧
      w₂.env.redis=w₁.env.redis ∧ w₂.env.draws=w₁.env.draws ∧ w₂.choices=w₁.choices.tail :=
    ⟨⟨_,rfl⟩,rfl,rfl,rfl,rfl⟩
  refine hnow.bind (fun now w₂ h₂ => ?_) fun e w₂ h₂ =>
    absurd h₂.1 (by rintro ⟨_,hok⟩; cases hok)
  obtain ⟨_,hdata₂,hredis₂,hdraws₂,hchoices₂⟩ := h₂
  have hretire : Yields (PasswordResetRepository.markActiveForUserUsed row.id now) w₂
      fun o w₃ => o=.ok () ∧ w₃.env=w₂.env ∧ w₃.choices=w₂.choices ∧
        Leaves [.passwordResetTokens] [] w₂ w₃ ∧ w₃.data.work .passwordResetTokens=
          (w₂.data.work .passwordResetTokens).map (retired row.id now) := by
    exact ⟨rfl,rfl,rfl,leaves_rewrite _ _ _,Transaction.write_work_self w₂.data _ _⟩
  refine hretire.bind (fun _ w₃ h₃ => ?_) fun e w₃ h₃ => absurd h₃.1 nofun
  obtain ⟨_,henv₃,hchoices₃,_,hcodes₃⟩ := h₃
  rw [hdata₂,hdata₁] at hcodes₃
  have hdrawn : ∀ r∈w₃.data.work .passwordResetTokens,r.id.int<w₃.env.draws := by
    intro r hr
    rw [hcodes₃] at hr
    obtain ⟨a,ha,rfl⟩ := List.mem_map.mp hr
    rw [retired_id,henv₃,hdraws₂,henv₁]
    exact hsound.drawn .passwordResetTokens a ha
  have hnew : (∀ r∈w₃.data.work .passwordResetTokens,r.tokenHash≠hashToken d
      (drawnCode w₀.choices)) ↔ NewCode d w₀ := by
    rw [hcodes₃]
    constructor
    · intro hall r hr hsame
      exact hall _ (List.mem_map.mpr ⟨r,hr,rfl⟩) ((retired_tokenHash _ _ r).trans hsame)
    · intro hall r hr hsame
      obtain ⟨a,ha,rfl⟩ := List.mem_map.mp hr
      exact hall a ha ((retired_tokenHash _ _ a).symm.trans hsame)
  refine (yields_created row.id (hashToken d (drawnCode w₀.choices)) _ _ _ hdrawn).bind
    (fun _ w₄ h₄ => ?_) fun e w₄ h₄ => ?_
  · rcases h₄ with ⟨⟨hfresh,hfits⟩,_,_,hchoices₄,record,hrow,howner,hhash,hunused⟩ | ⟨_,e,he⟩
    · have hsent : Environment.delivery (w₄.choices.headD 0)=.returned (some true) := by
        have hsame : w₄.choices.headD 0=w₀.choices.getD 3 0 := by
          rw [hchoices₄,hchoices₃,hchoices₂,hchoices₁]
          cases w₀.choices with
          | nil => rfl
          | cons a rest =>
            cases rest with
            | nil => rfl
            | cons b rest =>
              cases rest with
              | nil => rfl
              | cons c rest => cases rest <;> rfl
        rw [hsame]
        exact h.sent
      have hmail : ∀ address subject body,Yields (external (.sendEmail address subject body)) w₄
          fun o w₅ => o=.ok (.returned (some true)) ∧ w₅.data=w₄.data := by
        intro address subject body
        exact ⟨congrArg Except.ok hsent,rfl⟩
      refine (hmail _ _ _).bind (fun delivery w₅ h₅ => ?_) fun e w₅ h₅ => absurd h₅.1 nofun
      obtain ⟨hok,hdata₅⟩ := h₅
      obtain rfl := Except.ok.inj hok
      refine (yields_audited "auth.password_reset.requested" "success" (some row.id)
        [("email",.str row.email)] w₅).bind (fun _ w₆ h₆ => ?_) fun e w₆ h₆ => ?_
      · rcases h₆ with ⟨haudit,_,hleaves₆,_⟩ | ⟨_,he,_⟩
        · refine (yields_commit w₆).bind (fun _ w₇ h₇ => ?_) fun e w₇ h₇ => absurd h₇.1 nofun
          obtain ⟨_,_,hdata₇⟩ := h₇
          have hpublished : w₇.data.committed=w₆.data.work := congrArg Transaction.committed hdata₇
          have hcommitted : w₇.data.committed .passwordResetTokens=
              (w₀.data.work .passwordResetTokens).map (retired row.id now)++[record] := by
            rw [hpublished,hleaves₆.tables .passwordResetTokens (by decide),hdata₅,hrow,hcodes₃]
          exact .inl ⟨⟨hnew.mp hfresh,hfits,haudit⟩,rfl,record,now,hcommitted,howner,hhash,hunused⟩
        · exact absurd he nofun
      · rcases h₆ with ⟨_,hok,_⟩ | ⟨hlong,_,_⟩
        · exact absurd hok nofun
        · exact .inr ⟨fun hall => hlong hall.2.2,e,rfl⟩
    · exact absurd he nofun
  · rcases h₄ with ⟨_,hok,_⟩ | ⟨hno,_⟩
    · exact absurd hok nofun
    · exact .inr ⟨fun hall => hno ⟨hnew.mpr hall.1,hall.2.1⟩,e,rfl⟩

/-- A request for a code succeeds exactly when the drawn code was never issued
before, to this or any other account, and the client's address and program fit
their columns. -/
theorem request_issues_code_iff (d : Deployment) (s : ServerState) (choices : List ℕ)
    (email : String) (ip ua : Option String) (row : User) (hsound : Sound s.env s.db)
    (h : Requestable d (s.world choices) email row) :
    Issued d (s.world choices) row
        ((requestReset d email ip ua).run World.perform (s.world choices)).1
        ((requestReset d email ip ua).run World.perform (s.world choices)).2 ↔
      NewCode d (s.world choices) ∧ Describable d ip ua := by
  have hend := yields_requestReset (w := s.world choices) ip ua hsound h
  unfold Yields Program.Ensures at hend
  constructor
  · intro hissued
    rcases hend with ⟨hall,_⟩ | ⟨_,e,he⟩
    · exact hall
    · exact absurd (he.symm.trans hissued.reported) nofun
  · intro hall
    rcases hend with ⟨_,hissued⟩ | ⟨hno,_⟩
    · exact hissued
    · exact absurd hall hno

/-- The sample account may ask for a code, whatever it asked for before. -/
theorem requestable_sample {s : ServerState} (hstored : registeredUser.row∈s.db .users) :
    Requestable sampleDeployment (s.world []) "a@b" registeredUser.row :=
  ⟨hstored,by decide +kernel,rfl,by decide,rfl⟩

theorem request_issues_code_sample :
    Issued sampleDeployment (registeredServer.world []) registeredUser.row
      ((requestReset sampleDeployment "a@b" none none).run World.perform
        (registeredServer.world [])).1
      ((requestReset sampleDeployment "a@b" none none).run World.perform
        (registeredServer.world [])).2 := by
  have hnew : NewCode sampleDeployment (registeredServer.world []) := by
    unfold NewCode
    decide +kernel
  have hdescribable : Describable sampleDeployment none none := by
    unfold Describable
    decide +kernel
  exact (request_issues_code_iff sampleDeployment registeredServer [] "a@b" none none
    registeredUser.row reachable_registeredServer.sound
    (requestable_sample (by decide +kernel))).mpr ⟨hnew,hdescribable⟩

/-- The second request draws the code of the first one again and fails. -/
theorem request_repeats_code : ∃ s row,Reachable sampleDeployment s ∧
    Requestable sampleDeployment (s.world []) "a@b" row ∧
      ¬Issued sampleDeployment (s.world []) row
        ((requestReset sampleDeployment "a@b" none none).run World.perform (s.world [])).1
        ((requestReset sampleDeployment "a@b" none none).run World.perform (s.world [])).2 := by
  have hreach : Reachable sampleDeployment (codeRequested registeredServer) :=
    ⟨_,_,_,.step _ (.step _ .refl trivial) trivial⟩
  refine ⟨codeRequested registeredServer,registeredUser.row,hreach,
    requestable_sample (by decide +kernel),fun hissued => ?_⟩
  have hfails : ((requestReset sampleDeployment "a@b" none none).run World.perform
      ((codeRequested registeredServer).world [])).1.isOk=false := by
    decide +kernel
  rw [hissued.reported] at hfails
  exact absurd hfails nofun

end Requests

end BackendPlatform.PasswordResets
