import BackendPlatform.AccountRecovery
import BackendPlatform.SessionMarkers

/-!
# Frames of requests

What an action leaves alone follows from its footprint: tables it does not
write, parts of Redis it does not write, and everything committed before it
commits. The statements that revoke, mark and audit are also described
exactly, row by row.
-/

set_option autoImplicit false

namespace BackendPlatform.RequestFrames

open ProgramTrees TransactionalTables ExpiringStore
open AuthRecords AuthEffects AuthRepositories AuthServices AuthFlows AuthFootprints
open ServerRuns ReachableStates SessionMarkers

section Frames

variable {α : Type} {p : Action α} {fp : List Access} {w w' w'' : World} {ts ts' : List Table}
  {areas areas' : List Area}

/-- An access to nothing but the listed tables and parts of Redis. -/
abbrev Within (ts : List Table) (areas : List Area) : Access → Prop
  | .insert t | .update t | .delete t => t∈ts
  | .redisWrite a => a∈areas
  | .commit | .rollback => False
  | _ => True

instance (ts : List Table) (areas : List Area) (a : Access) : Decidable (Within ts areas a) :=
  match a with
  | .insert t | .update t | .delete t => inferInstanceAs (Decidable (t∈ts))
  | .redisWrite area => inferInstanceAs (Decidable (area∈areas))
  | .commit | .rollback => instDecidableFalse
  | .clock | .draw | .random | .sign | .mail | .observe => instDecidableTrue
  | .redisRead _ | .select _ | .lock _ => instDecidableTrue

/-- Only listed tables and parts of Redis have changed, nothing is committed. -/
structure Leaves (ts : List Table) (areas : List Area) (w w' : World) : Prop where
  /-- Other tables. -/
  tables : ∀ t,t∉ts → w'.data.work t=w.data.work t
  /-- Other keys. -/
  keys : ∀ key,area key∉areas → w'.env.redis key=w.env.redis key
  /-- Committed tables. -/
  committed : w'.data.committed=w.data.committed

/-- An unchanged world leaves everything as it was. -/
theorem Leaves.refl (w : World) : Leaves ts areas w w :=
  ⟨fun _ _ => rfl,fun _ _ => rfl,rfl⟩

/-- Frames compose. -/
theorem Leaves.trans (h : Leaves ts areas w w') (h' : Leaves ts areas w' w'') :
    Leaves ts areas w w'' :=
  ⟨fun t ht => (h'.tables t ht).trans (h.tables t ht),
    fun key hk => (h'.keys key hk).trans (h.keys key hk),h'.committed.trans h.committed⟩

/-- A frame may be widened. -/
theorem Leaves.widen (h : Leaves ts areas w w') (hts : ∀ t∈ts,t∈ts')
    (hareas : ∀ a∈areas,a∈areas') : Leaves ts' areas' w w' :=
  ⟨fun t ht => h.tables t fun hmem => ht (hts t hmem),
    fun key hk => h.keys key fun hmem => hk (hareas _ hmem),h.committed⟩

/-- A request that changes no table leaves the database alone. -/
theorem Leaves.data (h : Leaves [] areas w w') : w'.data=w.data := by
  have hwork : w'.data.work=w.data.work := funext fun t => h.tables t nofun
  cases hd : w'.data with
  | mk committed work =>
    rw [hd] at hwork
    have hcommitted := h.committed
    rw [hd] at hcommitted
    cases hd' : w.data with
    | mk committed' work' =>
      rw [hd'] at hwork hcommitted
      exact congr (congrArg _ hcommitted) hwork

/-- Replacing the rows of one table. -/
theorem leaves_rewrite (w : World) (t : Table) (rows : List (Row t)) :
    Leaves [t] [] w (World.rewrite w t rows) := by
  refine ⟨fun other hother => ?_,fun _ _ => rfl,rfl⟩
  have hne : other≠t := by simpa using hother
  exact @Transaction.write_work_of_ne authSchema _ w.data t other rows hne

/-- An effect outside a part of Redis leaves its keys alone. -/
theorem redis_perform {op : External} {a : Area} (hop : .redisWrite a∉accesses (.external op))
    (choice : ℕ) (env : Environment) {key : RedisKey} (hkey : area key=a) :
    (env.perform op choice).2.redis key=env.redis key := by
  have hne : ∀ other, .redisWrite a∉[Access.redisWrite (area other)] → key≠other := by
    intro other ho he
    exact ho (by simp [←he,hkey])
  cases op with
  | redisSet other value expiry => exact Store.assign_of_ne env.redis value _ (hne other hop)
  | redisDelete keys =>
    refine Store.removeAll_of_notMem env.redis fun hmem => hop ?_
    exact List.mem_map.mpr ⟨key,hmem,by rw [hkey]⟩
  | redisIncr other => exact (env.tick choice).increment_of_ne (hne other hop)
  | redisExpire other expiry => exact Store.retime_of_ne env.redis _ _ (hne other hop)
  | _ => rfl

/-- One effect within a frame. -/
theorem leaves_perform {op : Effect} (hop : ∀ a∈accesses op,Within ts areas a) (w : World) :
    Leaves ts areas w (World.perform op w).2 := by
  cases op with
  | external op =>
    refine ⟨fun _ _ => rfl,fun key hkey => redis_perform (fun hmem => hkey (hop _ hmem)) _ _ rfl,
      rfl⟩
  | sql stmt =>
    refine ⟨fun t ht => Transaction.perform_work_of_not_touches w.data fun htouch => ?_,
      fun _ _ => rfl,Transaction.perform_committed w.data ?_⟩
    · cases stmt with
      | insert u row =>
        have hu : t=u := htouch
        exact ht (hu ▸ hop (.insert u) (by simp [accesses]))
      | update u q f =>
        have hu : t=u := htouch
        exact ht (hu ▸ hop (.update u) (by simp [accesses]))
      | delete u q =>
        have hu : t=u := htouch
        exact ht (hu ▸ hop (.delete u) (by simp [accesses]))
      | rollback => exact hop .rollback (by simp [accesses])
      | _ => exact htouch
    · rintro rfl
      exact hop .commit (by simp [accesses])

/-- An action leaves alone what its footprint does not name. -/
theorem yields_leaves (ts : List Table) (areas : List Area) (hp : Inside p fp) (hfp : ∀ a∈fp,Within ts areas a) (w : World) :
    Yields p w fun _ w' => Leaves ts areas w w' :=
  Program.ensures_within (Leaves ts areas) Leaves.refl (by intro _ _ _ h h'; exact h.trans h')
    (fun _ w hop => leaves_perform (fun a ha => hfp a (hop a ha)) w) hp w

end Frames

section Statements

variable {d : Deployment} {ip ua : Option String}

/-- A token after a bulk revocation. -/
def revokedToken (q : RefreshToken → Bool) (now : Instant) (reason : String) (r : RefreshToken) :
    RefreshToken :=
  if q r && r.revokedAt.isNone then {r with revokedAt := some now, revocationReason := some reason}
  else r

/-- A session after a bulk revocation. -/
def revokedSession (q : UserSession → Bool) (now : Instant) (s : UserSession) : UserSession :=
  if q s && s.revokedAt.isNone then {s with revokedAt := some now} else s

/-- Selected tokens are revoked afterwards. -/
theorem revokedToken_revoked {q : RefreshToken → Bool} {now : Instant} {reason : String}
    {r : RefreshToken} (h : q r=true) : (revokedToken q now reason r).revokedAt≠none := by
  unfold revokedToken
  cases hr : r.revokedAt with
  | none => simp [h]
  | some instant => simp [hr]

/-- Other tokens, and tokens revoked before, are as they were. -/
theorem revokedToken_same {q : RefreshToken → Bool} {now : Instant} {reason : String}
    {r : RefreshToken} (h : q r=false ∨ r.revokedAt≠none) : revokedToken q now reason r=r := by
  unfold revokedToken
  rcases h with h | h
  · simp [h]
  · cases hr : r.revokedAt with
    | none => exact absurd hr h
    | some instant => simp

/-- Revoking keeps the family of a token. -/
theorem revokedToken_familyId {q : RefreshToken → Bool} {now : Instant} {reason : String}
    {r : RefreshToken} : (revokedToken q now reason r).familyId=r.familyId := by
  unfold revokedToken
  split <;> rfl

/-- Revoking keeps the user of a token. -/
theorem revokedToken_userId {q : RefreshToken → Bool} {now : Instant} {reason : String}
    {r : RefreshToken} : (revokedToken q now reason r).userId=r.userId := by
  unfold revokedToken
  split <;> rfl

/-- Selected sessions are revoked afterwards. -/
theorem revokedSession_revoked {q : UserSession → Bool} {now : Instant} {s : UserSession}
    (h : q s=true) : (revokedSession q now s).revokedAt≠none := by
  unfold revokedSession
  cases hs : s.revokedAt with
  | none => simp [h]
  | some instant => simp [hs]

/-- Other sessions, and sessions revoked before, are as they were. -/
theorem revokedSession_same {q : UserSession → Bool} {now : Instant} {s : UserSession}
    (h : q s=false ∨ s.revokedAt≠none) : revokedSession q now s=s := by
  unfold revokedSession
  rcases h with h | h
  · simp [h]
  · cases hs : s.revokedAt with
    | none => exact absurd hs h
    | some instant => simp

/-- Revoking keeps the family of a session. -/
theorem revokedSession_refreshFamilyId {q : UserSession → Bool} {now : Instant} {s : UserSession} :
    (revokedSession q now s).refreshFamilyId=s.refreshFamilyId := by
  unfold revokedSession
  split <;> rfl

/-- Revoking keeps the user of a session. -/
theorem revokedSession_userId {q : UserSession → Bool} {now : Instant} {s : UserSession} :
    (revokedSession q now s).userId=s.userId := by
  unfold revokedSession
  split <;> rfl

/-- The bulk revocation of tokens. -/
theorem yields_revokedTokens (q : RefreshToken → Bool) (reason : String) (w : World) :
    Yields (RefreshTokenRepository.revokeWhere q reason) w fun o w' => o=.ok () ∧
      Leaves [.refreshTokens] [] w w' ∧
        ∃ now, tokensOf w'.data.work=(tokensOf w.data.work).map (revokedToken q now reason) := by
  have hleaves := yields_leaves [.refreshTokens] []
    (inside_revokeTokensWhere q reason) (by decide) w
  exact ⟨rfl,hleaves,w.env.clock+w.choices.headD 0,tokensOf_rewrite_refreshTokens _ _⟩

/-- The bulk revocation of sessions. -/
theorem yields_revokedSessions (q : UserSession → Bool) (w : World) :
    Yields (SessionRepository.revokeWhere q) w fun o w' => o=.ok () ∧
      Leaves [.userSessions] [] w w' ∧
        ∃ now, sessionsOf w'.data.work=(sessionsOf w.data.work).map (revokedSession q now) := by
  have hleaves := yields_leaves [.userSessions] []
    (inside_revokeSessionsWhere q) (by decide) w
  exact ⟨rfl,hleaves,w.env.clock+w.choices.headD 0,sessionsOf_rewrite_userSessions _ _⟩

/-- The key of a session's marker. -/
abbrev marker (sessionId : String) : RedisKey := .accessSessionRevoked sessionId

/-- A marker is set and no other key changes. -/
theorem yields_marked (sessionId : UUID) (w : World) :
    Yields (markAccessSessionRevoked d sessionId) w fun o w' => o=.ok () ∧ w'.data=w.data ∧
      Marked w'.env sessionId.str ∧
        ∀ key,key≠marker sessionId.str → w'.env.redis key=w.env.redis key := by
  have hpos : revocationTtl d≠0 := by
    unfold revocationTtl
    omega
  unfold markAccessSessionRevoked redisSet
  rw [if_neg hpos]
  refine ⟨rfl,rfl,?_,fun key hkey => Store.assign_of_ne _ _ _ hkey⟩
  intro hnone
  have hset := Store.assign_self w.env.redis (marker sessionId.str) (.text "1")
    (some (w.env.clock+w.choices.headD 0+seconds (revocationTtl d)))
  exact absurd (hset.symm.trans hnone) nofun

/-- The markers of a list of sessions are set and no other key changes. -/
theorem yields_markedAll (sessionIds : List UUID) (w : World) :
    Yields (markAccessSessionsRevoked d sessionIds) w fun o w' => o=.ok () ∧ w'.data=w.data ∧
      (∀ id∈sessionIds,Marked w'.env id.str) ∧
        ∀ key,(∀ id∈sessionIds,key≠marker id.str) → w'.env.redis key=w.env.redis key := by
  induction sessionIds generalizing w with
  | nil => exact ⟨rfl,rfl,nofun,fun _ _ => rfl⟩
  | cons sessionId rest ih =>
    refine (yields_marked sessionId w).bind (fun _ w₁ h₁ => ?_) fun e w₁ h₁ => absurd h₁.1 nofun
    obtain ⟨_,hdata₁,hmarked₁,hsame₁⟩ := h₁
    refine (ih w₁).mono fun o w₂ h₂ => ?_
    obtain ⟨hok,hdata₂,hmarked₂,hsame₂⟩ := h₂
    refine ⟨hok,hdata₂.trans hdata₁,?_,?_⟩
    · intro id hid
      by_cases hrest : id∈rest
      · exact hmarked₂ id hrest
      · rcases List.mem_cons.mp hid with rfl | hid
        · -- a marker set before stays, whether or not it is set again
          by_cases hagain : ∃ other∈rest,other.str=id.str
          · obtain ⟨other,hother,hstr⟩ := hagain
            exact hstr ▸ hmarked₂ other hother
          · have hkey := hsame₂ (marker id.str) fun other hother he =>
              hagain ⟨other,hother,(RedisKey.accessSessionRevoked.inj he).symm⟩
            exact fun hnone => hmarked₁ (hkey.symm.trans hnone)
        · exact absurd hid hrest
    · intro key hkey
      exact (hsame₂ key fun id hid => hkey id (List.mem_cons_of_mem _ hid)).trans
        (hsame₁ key (hkey sessionId List.mem_cons_self))

/-- An audit row is added unless its address or program does not fit. -/
theorem yields_audited (eventType outcome : String) (userId : Option UUID)
    (payload : List (String×PyValue)) (w : World) :
    Yields (AuditService.logEvent d eventType outcome userId userId ip ua payload) w fun o w' =>
      (Auditable ip ua ∧ o=.ok () ∧ Leaves [.auditEvents] [] w w' ∧
        ∃ event : AuditEvent,event.eventType=eventType ∧ event.actorUserId=userId ∧
          w'.data.work .auditEvents=w.data.work .auditEvents++[event]) ∨
        ¬Auditable ip ua ∧ o=.error .dataError ∧ w'=w := by
  have hleaves := yields_leaves [.auditEvents] []
    (inside_logEvent d eventType outcome userId userId ip ua payload) (by decide) w
  unfold Yields Program.Ensures at hleaves ⊢
  by_cases hvalid : Auditable ip ua
  · have haccepted : valid .auditEvents
        ⟨eventType,outcome,userId,userId,ip,ua,AuditService.sanitizePayload d payload⟩=true :=
      hvalid
    have hconflict : (w.data.work .auditEvents).any (conflict .auditEvents
        ⟨eventType,outcome,userId,userId,ip,ua,AuditService.sanitizePayload d payload⟩)=false := by
      simp [conflict]
    have hrun := run_insertRow (t := .auditEvents) haccepted hconflict
    refine .inl ⟨hvalid,congrArg Prod.fst hrun,hleaves,
      ⟨eventType,outcome,userId,userId,ip,ua,AuditService.sanitizePayload d payload⟩,rfl,rfl,?_⟩
    have hrows := congrArg (fun r : Except Failure Unit×World => r.2.data.work .auditEvents) hrun
    exact hrows.trans (Transaction.write_work_self w.data .auditEvents _)
  · have hinvalid : valid .auditEvents
        ⟨eventType,outcome,userId,userId,ip,ua,AuditService.sanitizePayload d payload⟩=false :=
      Bool.eq_false_iff.mpr hvalid
    have hrun := run_insertRow_invalid (t := .auditEvents) (w := w) hinvalid
    exact .inr ⟨hvalid,congrArg Prod.fst hrun,congrArg Prod.snd hrun⟩

/-- A row is inserted exactly when columns and constraints accept it. -/
theorem yields_inserted (t : Table) (row : Row t) (w : World) :
    Yields (insertRow t row) w fun o w' =>
      ((valid t row=true ∧ (w.data.work t).any (conflict t row)=false) ∧ o=.ok () ∧
        w'=World.rewrite w t (w.data.work t++[row])) ∨
        ¬(valid t row=true ∧ (w.data.work t).any (conflict t row)=false) ∧ ∃ e,o=.error e := by
  have hends := SessionMarkers.yields_insertRow t row w
  unfold Yields Program.Ensures at hends ⊢
  cases hvalid : valid t row with
  | false =>
    rw [run_insertRow_invalid hvalid]
    exact .inr ⟨fun h => absurd h.1 nofun,_,rfl⟩
  | true =>
    rcases hends with ⟨hok,hconflict,hrow⟩ | ⟨herror,_⟩
    · exact .inl ⟨⟨rfl,hconflict⟩,hok,hrow⟩
    · refine .inr ⟨fun h => ?_,herror⟩
      rw [run_insertRow hvalid h.2] at herror
      obtain ⟨e,he⟩ := herror
      exact absurd he nofun

/-- A commit publishes the working copy. -/
theorem yields_commit (w : World) :
    Yields commit w fun o w' => o=.ok () ∧ w'.env=w.env ∧ w'.data=⟨w.data.work,w.data.work⟩ :=
  ⟨rfl,rfl,rfl⟩

end Statements

end BackendPlatform.RequestFrames
