import BackendPlatform.RequestFrames

/-!
# Reuse of a refresh token

A refresh with a token that was rotated or revoked before revokes the tokens
and sessions of its family, marks the session and leaves an audit row, and
all of this is committed although the request raises. The audit row is the
weak point: an address or a program too long for its column undoes the rest.
-/

set_option autoImplicit false

namespace BackendPlatform.TokenReuse

open ProgramTrees TransactionalTables ExpiringStore
open AuthRecords AuthEffects AuthRepositories AuthServices AuthFlows AuthFootprints
open ServerRuns ReachableStates FailedSignIns AccountRecovery SessionMarkers RequestFrames
open RefreshTokenService JWTService

section Reuse

variable {d : Deployment} {ip ua : Option String} {w w' : World} {token : RawToken}
  {ids : RefreshIds} {record : RefreshToken} {session : UserSession}

/-- A token that decodes, unexpired, with a matching row that was rotated or
revoked before and with the active session of its family. -/
structure Reusable (d : Deployment) (w : World) (token : RawToken) (ids : RefreshIds)
    (record : RefreshToken) (session : UserSession) : Prop where
  /-- The token decodes to the ids. -/
  decodes : ∃ payload encoding sid fid,token=.signed payload encoding ∧
    refusal d payload .refresh (w.env.clock+w.choices.headD 0)=none ∧ payload.sid=some sid ∧
    payload.familyId=some fid ∧
    parseIds ⟨payload.sub,payload.jti,payload.type,payload.sid,payload.familyId⟩ sid fid=some ids
  /-- Its row. -/
  stored : record∈tokensOf w.data.work
  /-- Same id. -/
  jti : record.jti=ids.tokenJti
  /-- Same user. -/
  userId : record.userId=ids.userId
  /-- Same family. -/
  familyId : record.familyId=ids.familyId
  /-- Same token. -/
  tokenHash : record.tokenHash=hashRefreshToken d token
  /-- Its row has not expired when it is looked at. -/
  fresh : w.env.clock+w.choices.headD 0+w.choices.tail.headD 0 ≤ record.expiresAt
  /-- It was used. -/
  used : record.revokedAt≠none ∨ record.rotatedAt≠none
  /-- The session the token names. -/
  hasSession : session∈sessionsOf w.data.work
  /-- It is named. -/
  sessionId : session.id=ids.sessionId
  /-- It is the session of the family. -/
  family : session.refreshFamilyId=ids.familyId
  /-- It is active. -/
  active : session.revokedAt=none

/-- The family is dead and nothing else has changed. -/
structure FamilyKilled (ids : RefreshIds) (w : World) (o : Except Failure TokenPair) (w' : World) :
    Prop where
  /-- The request raises. -/
  raised : o=.error (.tokenReuseDetected ids.sessionId ids.familyId)
  /-- Tokens of the family are revoked; those revoked before and those of
  other families are as they were. -/
  tokens : ∃ f,tokensOf w'.data.committed=(tokensOf w.data.work).map f ∧
    ∀ r,(f r).jti=r.jti ∧ (f r).familyId=r.familyId ∧
      (r.familyId=ids.familyId → (f r).revokedAt≠none) ∧
      (r.familyId≠ids.familyId ∨ r.revokedAt≠none → f r=r)
  /-- Sessions of the family are revoked; the others are as they were. -/
  sessions : ∃ g,sessionsOf w'.data.committed=(sessionsOf w.data.work).map g ∧
    ∀ s,(g s).id=s.id ∧ (g s).refreshFamilyId=s.refreshFamilyId ∧
      (s.refreshFamilyId=ids.familyId → (g s).revokedAt≠none) ∧
      (s.refreshFamilyId≠ids.familyId ∨ s.revokedAt≠none → g s=s)
  /-- The session is marked. -/
  marked : Marked w'.env ids.sessionId.str
  /-- No other marker changes. -/
  markers : ∀ sessionId,sessionId≠ids.sessionId.str →
    w'.env.redis (marker sessionId)=w.env.redis (marker sessionId)
  /-- Sessions of other families keep their markers. -/
  otherMarkers : ∀ s∈sessionsOf w.data.work,s.refreshFamilyId≠ids.familyId →
    w'.env.redis (marker s.id.str)=w.env.redis (marker s.id.str)
  /-- One audit row is added. -/
  audited : ∃ event : AuditEvent,event.eventType="auth.refresh.reuse_detected" ∧
    w'.data.committed .auditEvents=w.data.work .auditEvents++[event]

/-- A token that decodes names its ids. -/
theorem yields_claims (h : Reusable d w token ids record session) :
    Yields (decodeAndValidate d token .refresh) w fun o w' => w'=World.elapsed w ∧
      ∃ claims,o=.ok claims ∧ ∀ w,Yields (refreshIds claims) w fun o w' => o=.ok ids ∧ w'=w := by
  obtain ⟨payload,encoding,sid,fid,rfl,hrefusal,hsid,hfid,hparse⟩ := h.decodes
  have hrun := run_decodeAndValidate (d := d) payload encoding .refresh w
  rw [hrefusal] at hrun
  unfold Yields Program.Ensures
  rw [hrun]
  refine ⟨rfl,_,rfl,fun w₁ => ?_⟩
  unfold refreshIds
  simp only [hsid,hfid]
  rw [hsid,hfid] at hparse
  rw [hparse]
  exact ⟨rfl,rfl⟩

/-- The row of the token is found. -/
theorem yields_row (hsound : (tokensOf w.data.work).Pairwise fun a b => conflict .refreshTokens a b=false)
    (hrecord : record∈tokensOf w.data.work) :
    Yields (RefreshTokenRepository.getByJtiForUpdate record.jti) w fun o w' =>
      o=.ok (some record) ∧ w'=w := by
  have hone : ((tokensOf w.data.work).filter fun r => r.jti==record.jti).length=1 := by
    refine filter_length_eq_one (t := .refreshTokens) hsound hrecord (by simp) ?_
    intro a b ha hb
    simp_all [conflict]
  have hmem : record∈(tokensOf w.data.work).filter fun r => r.jti==record.jti :=
    List.mem_filter.mpr ⟨hrecord,by simp⟩
  obtain ⟨only,honly⟩ := List.length_eq_one_iff.mp hone
  rw [honly,List.mem_singleton] at hmem
  subst hmem
  have hrun : Program.run World.perform (RefreshTokenRepository.getByJtiForUpdate record.jti) w=
      (scalarOneOrNone ((tokensOf w.data.work).filter fun r => r.jti==record.jti)).run
        World.perform w := rfl
  unfold Yields Program.Ensures
  rw [hrun,honly]
  exact ⟨rfl,rfl⟩

/-- The family is active. -/
theorem yields_active {familyId : UUID} (hsession : session∈sessionsOf w.data.work)
    (hfamily : session.refreshFamilyId=familyId) (hactive : session.revokedAt=none) :
    Yields (SessionRepository.isFamilyActive familyId) w fun o w' => o=.ok true ∧ w'=w := by
  refine ⟨congrArg Except.ok (decide_eq_true ?_),rfl⟩
  refine List.length_pos_of_mem (a := session) (List.mem_filter.mpr ⟨hsession,?_⟩)
  simp [hfamily,hactive]

/-- The state in which a rotation of a used token raises. -/
structure Condemned (ids : RefreshIds) (w w' : World) : Prop where
  /-- Only tokens and sessions have changed. -/
  leaves : Leaves [.refreshTokens,.userSessions] [] w w'
  /-- The tokens of the family are revoked. -/
  tokens : ∃ now,tokensOf w'.data.work=(tokensOf w.data.work).map
    (revokedToken (fun r => r.familyId==ids.familyId) now "reuse_detected")
  /-- The sessions of the family are revoked. -/
  sessions : ∃ now,sessionsOf w'.data.work=(sessionsOf w.data.work).map
    (revokedSession (fun s => s.refreshFamilyId==ids.familyId) now)

/-- The revocation of a whole family. -/
theorem yields_condemned (w : World) :
    Yields ((RefreshTokenRepository.revokeFamily ids.familyId "reuse_detected").bind fun _ =>
      (SessionRepository.revokeFamily ids.familyId).bind fun _ =>
        (.raise (.tokenReuseDetected ids.sessionId ids.familyId) : Action TokenPair)) w
      fun o w' => o=.error (.tokenReuseDetected ids.sessionId ids.familyId) ∧
        Condemned ids w w' := by
  refine (yields_revokedTokens (fun r => r.familyId==ids.familyId) "reuse_detected" w).bind
    (fun _ w₁ h₁ => ?_) fun e w₁ h₁ => absurd h₁.1 nofun
  obtain ⟨_,hleaves₁,hnow₁⟩ := h₁
  refine (yields_revokedSessions (fun s => s.refreshFamilyId==ids.familyId) w₁).bind
    (fun _ w₂ h₂ => ?_) fun e w₂ h₂ => absurd h₂.1 nofun
  obtain ⟨_,hleaves₂,hnow₂⟩ := h₂
  have htokens : tokensOf w₂.data.work=tokensOf w₁.data.work :=
    hleaves₂.tables .refreshTokens (by decide)
  have hsessions : sessionsOf w₁.data.work=sessionsOf w.data.work :=
    hleaves₁.tables .userSessions (by decide)
  have hleaves : Leaves [.refreshTokens,.userSessions] [] w w₂ :=
    (hleaves₁.widen (by decide) (by decide)).trans (hleaves₂.widen (by decide) (by decide))
  rw [← htokens] at hnow₁
  rw [hsessions] at hnow₂
  exact ⟨rfl,hleaves,hnow₁,hnow₂⟩

/-- A rotation of a used token revokes its family and raises. -/
theorem yields_rotateReused
    (hunique : (tokensOf w.data.work).Pairwise fun a b => conflict .refreshTokens a b=false)
    (h : Reusable d w token ids record session) :
    Yields (rotate d token ip ua) w fun o w' =>
      o=.error (.tokenReuseDetected ids.sessionId ids.familyId) ∧ Condemned ids w w' := by
  refine (yields_claims h).bind (fun claims w₁ h₁ => ?_) fun e w₁ h₁ =>
    absurd h₁.2 (by rintro ⟨_,hok,_⟩; cases hok)
  obtain ⟨rfl,claims',hok,hids⟩ := h₁
  obtain rfl := Except.ok.inj hok
  refine (hids _).bind (fun ids' w₂ h₂ => ?_) fun e w₂ h₂ => absurd h₂.1 nofun
  obtain ⟨hok,rfl⟩ := h₂
  obtain rfl := Except.ok.inj hok
  have hrow := yields_row (w := World.elapsed w) hunique h.stored
  rw [h.jti] at hrow
  refine hrow.bind (fun found w₃ h₃ => ?_) fun e w₃ h₃ => absurd h₃.1 nofun
  obtain ⟨hok,rfl⟩ := h₃
  obtain rfl := Except.ok.inj hok
  have hmatch : ¬(record.userId≠ids'.userId ∨ record.familyId≠ids'.familyId) := by
    rintro (hne | hne)
    · exact hne h.userId
    · exact hne h.familyId
  simp only [Program.monad_throw,Program.monad_bind,Program.raise_bind]
  rw [if_neg hmatch,if_neg (not_not.mpr h.tokenHash)]
  refine (yields_active (w := World.elapsed w) h.hasSession h.family h.active).bind
    (fun active w₄ h₄ => ?_) fun e w₄ h₄ => absurd h₄.1 nofun
  obtain ⟨hok,rfl⟩ := h₄
  obtain rfl := Except.ok.inj hok
  rw [if_neg (by decide)]
  have hclock : Yields utcNow (World.elapsed w) fun o w' =>
      o=.ok (w.env.clock+w.choices.headD 0+w.choices.tail.headD 0) ∧
        w'=World.elapsed (World.elapsed w) := ⟨rfl,rfl⟩
  refine hclock.bind (fun now w₅ h₅ => ?_) fun e w₅ h₅ => absurd h₅.1 nofun
  obtain ⟨hok,rfl⟩ := h₅
  obtain rfl := Except.ok.inj hok
  have hused : (record.revokedAt.isSome || record.rotatedAt.isSome)=true := by
    simpa [Option.isSome_iff_ne_none] using h.used
  rw [if_neg (Nat.not_lt.mpr h.fresh),if_pos hused]
  -- time alone changes neither tables nor keys
  refine (yields_condemned (World.elapsed (World.elapsed w))).mono fun o w' hend => ?_
  obtain ⟨he,hleaves,htokens,hsessions⟩ := hend
  exact ⟨he,⟨hleaves.tables,hleaves.keys,hleaves.committed⟩,htokens,hsessions⟩

/-- The handler of a reuse commits what the rotation did and sets the marker,
unless its audit row is rejected. -/
theorem yields_reuseHandled (ids : RefreshIds) (w' : World) :
    Yields (AuthService.refreshFailed d ip ua (.tokenReuseDetected ids.sessionId ids.familyId)) w'
      fun o w'' => (¬Auditable ip ua ∧ o=.error .dataError) ∨ (Auditable ip ua ∧
        o=.error (.tokenReuseDetected ids.sessionId ids.familyId) ∧
        (∀ t,t≠.auditEvents → w''.data.committed t=w'.data.work t) ∧
        Marked w''.env ids.sessionId.str ∧
        (∀ key,key≠marker ids.sessionId.str → w''.env.redis key=w'.env.redis key) ∧
        ∃ event : AuditEvent,event.eventType="auth.refresh.reuse_detected" ∧
          w''.data.committed .auditEvents=w'.data.work .auditEvents++[event]) := by
  refine (yields_marked ids.sessionId w').bind (fun _ w₁ h₁ => ?_) fun e w₁ h₁ => absurd h₁.1 nofun
  obtain ⟨_,hdata₁,hmarked₁,hkeys₁⟩ := h₁
  refine (yields_audited "auth.refresh.reuse_detected" "failure" none
    [("reason",.str "reused_refresh")] w₁).bind (fun _ w₂ h₂ => ?_) fun e w₂ h₂ => ?_
  · rcases h₂ with ⟨hfits,_,hleaves,event,htype,_,hrow⟩ | ⟨_,he,_⟩
    · refine (yields_commit w₂).bind (fun _ w₃ h₃ => ?_) fun e w₃ h₃ => absurd h₃.1 nofun
      obtain ⟨_,henv,hdata⟩ := h₃
      have hcommitted : w₃.data.committed=w₂.data.work := congrArg Transaction.committed hdata
      have hkeys : ∀ key,w₂.env.redis key=w₁.env.redis key :=
        fun key => hleaves.keys key (List.not_mem_nil)
      have htables : ∀ t,t≠.auditEvents → w₃.data.committed t=w'.data.work t := by
        intro t ht
        rw [hcommitted,hleaves.tables t (by simpa using ht),hdata₁]
      have hmarked : Marked w₃.env ids.sessionId.str := by
        unfold Marked
        rw [henv,hkeys]
        exact hmarked₁
      have hothers : ∀ key,key≠marker ids.sessionId.str →
          w₃.env.redis key=w'.env.redis key := by
        intro key hkey
        rw [henv,hkeys,hkeys₁ key hkey]
      have haudit : w₃.data.committed .auditEvents=w'.data.work .auditEvents++[event] := by
        rw [hcommitted,hrow,hdata₁]
      exact .inr ⟨hfits,rfl,htables,hmarked,hothers,event,htype,haudit⟩
    · exact absurd he nofun
  · rcases h₂ with ⟨_,hok,_⟩ | ⟨hlong,he,_⟩
    · exact absurd hok nofun
    · obtain rfl := Except.error.inj he
      exact .inl ⟨hlong,rfl⟩

/-- What a handled reuse leaves behind. -/
theorem Condemned.killed {w'' : World} (hcondemned : Condemned ids w w')
    (hsound : (sessionsOf w.data.work).Pairwise fun a b => conflict .userSessions a b=false)
    (h : Reusable d w token ids record session)
    (htables : ∀ t,t≠.auditEvents → w''.data.committed t=w'.data.work t)
    (hmarked : Marked w''.env ids.sessionId.str)
    (hkeys : ∀ key,key≠marker ids.sessionId.str → w''.env.redis key=w'.env.redis key)
    (haudit : ∃ event : AuditEvent,event.eventType="auth.refresh.reuse_detected" ∧
      w''.data.committed .auditEvents=w'.data.work .auditEvents++[event]) :
    FamilyKilled ids w (.error (.tokenReuseDetected ids.sessionId ids.familyId)) w'' := by
  obtain ⟨hleaves,⟨now,htokens⟩,⟨now',hsessions⟩⟩ := hcondemned
  have hmarkers : ∀ sessionId,sessionId≠ids.sessionId.str →
      w''.env.redis (marker sessionId)=w.env.redis (marker sessionId) := by
    intro sessionId hne
    have hkey : marker sessionId≠marker ids.sessionId.str := by simpa [marker] using hne
    rw [hkeys _ hkey,hleaves.keys _ (List.not_mem_nil)]
  have hother : ∀ s∈sessionsOf w.data.work,s.refreshFamilyId≠ids.familyId →
      s.id.str≠ids.sessionId.str := by
    intro s hs hfamily hstr
    have hid : s.id=session.id := by
      rw [h.sessionId]
      have hparse := UUID.parse_str s.id
      rw [hstr,UUID.parse_str] at hparse
      exact (Option.some.inj hparse).symm
    have hsame : s=session := eq_of_conflict (t := .userSessions) hsound hs h.hasSession
      (by simp [conflict,hid])
    exact hfamily (hsame ▸ h.family)
  refine ⟨rfl,⟨_,(htables .refreshTokens (by decide)).trans htokens,fun r => ⟨?_,
    revokedToken_familyId,fun hr => revokedToken_revoked (by simp [hr]),fun hr => ?_⟩⟩,
    ⟨_,(htables .userSessions (by decide)).trans hsessions,fun s => ⟨?_,
    revokedSession_refreshFamilyId,fun hs => revokedSession_revoked (by simp [hs]),fun hs => ?_⟩⟩,
    hmarked,hmarkers,fun s hs hfamily => hmarkers _ (hother s hs hfamily),?_⟩
  · unfold revokedToken
    split <;> rfl
  · exact revokedToken_same (hr.imp_left fun hne => by simpa using hne)
  · unfold revokedSession
    split <;> rfl
  · exact revokedSession_same (hs.imp_left fun hne => by simpa using hne)
  · obtain ⟨event,htype,hrow⟩ := haudit
    refine ⟨event,htype,?_⟩
    rw [hrow,hleaves.tables .auditEvents (by decide)]

/-- How a refresh with a used token ends. -/
theorem yields_refreshReused (ip ua : Option String)
    (hsound : Sound w.env w.data.work) (h : Reusable d w token ids record session) :
    Yields (AuthService.refreshTokens d token ip ua) w fun o w' =>
      (¬Auditable ip ua ∧ o=.error .dataError) ∨
        (Auditable ip ua ∧ FamilyKilled ids w o w') := by
  have htry : Yields (tryCatch (rotate d token ip ua) (AuthService.refreshFailed d ip ua)) w
      fun o w' => (¬Auditable ip ua ∧ o=.error .dataError) ∨
        (Auditable ip ua ∧ o=.error (.tokenReuseDetected ids.sessionId ids.familyId) ∧
          FamilyKilled ids w o w') := by
    refine (yields_rotateReused (hsound.unique .refreshTokens) h).handle
      (fun pair w₁ h₁ => absurd h₁.1 nofun) fun e w₁ h₁ => ?_
    obtain ⟨he,hcondemned⟩ := h₁
    obtain rfl := Except.error.inj he
    refine (yields_reuseHandled ids w₁).mono fun o w₂ h₂ => ?_
    rcases h₂ with hlong | ⟨hfits,rfl,htables,hmarked,hkeys,haudit⟩
    · exact .inl hlong
    · exact .inr ⟨hfits,rfl,hcondemned.killed (hsound.unique .userSessions) h htables hmarked hkeys
        haudit⟩
  refine htry.bind (fun pair w₁ h₁ => ?_) fun e w₁ h₁ => ?_
  · rcases h₁ with ⟨_,he⟩ | ⟨_,he,_⟩
    · exact absurd he nofun
    · exact absurd he nofun
  · rcases h₁ with ⟨hlong,he⟩ | ⟨hfits,he,hkilled⟩
    · obtain rfl := Except.error.inj he
      exact .inl ⟨hlong,rfl⟩
    · obtain rfl := Except.error.inj he
      exact .inr ⟨hfits,hkilled⟩

/-- A reused token kills its family, survives the exception and touches no
other family exactly when the audit table accepts the client's address and
program. -/
theorem reuse_kills_family_iff (d : Deployment) (s : ServerState) (choices : List ℕ)
    (token : RawToken) (ip ua : Option String) (ids : RefreshIds) (record : RefreshToken)
    (session : UserSession) (hsound : Sound s.env s.db)
    (h : Reusable d (s.world choices) token ids record session) :
    FamilyKilled ids (s.world choices)
        ((AuthService.refreshTokens d token ip ua).run World.perform (s.world choices)).1
        ((AuthService.refreshTokens d token ip ua).run World.perform (s.world choices)).2 ↔
      Auditable ip ua := by
  have hend := yields_refreshReused (w := s.world choices) ip ua hsound h
  unfold Yields Program.Ensures at hend
  constructor
  · intro hkilled
    rcases hend with ⟨_,he⟩ | ⟨hfits,_⟩
    · exact absurd (he.symm.trans hkilled.raised) nofun
    · exact hfits
  · intro hfits
    rcases hend with ⟨hlong,_⟩ | ⟨_,hkilled⟩
    · exact absurd hfits hlong
    · exact hkilled

end Reuse

section Samples

/-- An account is created, signs in and refreshes. -/
def sampleRotation : List Input :=
  [.call (fromClient (.register "a@b" "password1")) [],
    .call (fromClient (.login "a@b" "password1")) [],
    .call (fromClient (.refreshTokens firstRefreshToken)) []]

/-- The ids in the first refresh token. -/
def sampleIds : RefreshIds := ⟨⟨14⟩,⟨12⟩,⟨13⟩,⟨11⟩⟩

/-- The row of the first refresh token after it was exchanged. -/
def sampleRow : RefreshToken where
  userId := ⟨11⟩
  jti := ⟨14⟩
  familyId := ⟨12⟩
  parentJti := none
  tokenHash := hashRefreshToken sampleDeployment firstRefreshToken
  expiresAt := seconds 2595000
  rotatedAt := some (seconds 3000)
  revokedAt := some (seconds 3000)
  replacedByJti := some ⟨16⟩
  revocationReason := some "rotated"
  ipAddress := some "1.2.3.4"
  userAgent := none

/-- The row of its session. -/
def sampleSession : UserSession where
  id := ⟨13⟩
  userId := ⟨11⟩
  refreshFamilyId := ⟨12⟩
  ipAddress := some "1.2.3.4"
  userAgent := none
  lastSeenAt := some (seconds 3000)
  revokedAt := none

/-- The first refresh token is reusable after it was exchanged. -/
theorem exists_reusable : ∃ s record session,
    Reachable sampleDeployment s ∧
      Reusable sampleDeployment (s.world []) firstRefreshToken sampleIds record session := by
  have hrun : (performAll sampleDeployment (fun _ _ _ => true) sampleRotation []
      (freshServer (seconds 3000) 10)).any (fun result =>
        (tokensOf result.2.db).head?=some sampleRow && (sessionsOf result.2.db).head?=some sampleSession &&
          result.2.env.clock=seconds 3000)=true := by
    decide +kernel
  obtain ⟨⟨trace,s⟩,hperform,hrows⟩ := (Option.any_eq_true _ _).mp hrun
  have hreach := runs_of_performAll (C := fun _ _ _ => True) (fun _ _ _ _ => trivial) .refl hperform
  simp only [Bool.and_eq_true,decide_eq_true_eq] at hrows
  obtain ⟨⟨htoken,hsession⟩,hclock⟩ := hrows
  have hnow : (s.world []).env.clock=seconds 3000 := hclock
  refine ⟨s,sampleRow,sampleSession,⟨_,_,trace,hreach⟩,?_⟩
  refine ⟨⟨_,_,"13","12",rfl,?_,rfl,rfl,by decide⟩,List.mem_of_head? htoken,rfl,rfl,rfl,rfl,?_,
    .inr nofun,List.mem_of_head? hsession,rfl,rfl,rfl⟩
  · rw [hnow]
    show refusal sampleDeployment _ .refresh (seconds 3000+0)=none
    decide +kernel
  · rw [hnow]
    show seconds 3000+0+0 ≤ sampleRow.expiresAt
    decide +kernel

theorem reuse_kills_family_short : ∃ s : ServerState,
    FamilyKilled sampleIds (s.world [])
      ((AuthService.refreshTokens sampleDeployment firstRefreshToken (some "198.51.100.7")
        (some "browser")).run World.perform (s.world [])).1
      ((AuthService.refreshTokens sampleDeployment firstRefreshToken (some "198.51.100.7")
        (some "browser")).run World.perform (s.world [])).2 := by
  obtain ⟨s,record,session,hreach,hreusable⟩ := exists_reusable
  have hfits : Auditable (some "198.51.100.7") (some "browser") := by
    decide
  exact ⟨s,(reuse_kills_family_iff sampleDeployment s [] firstRefreshToken (some "198.51.100.7")
    (some "browser") sampleIds record session hreach.sound hreusable).mpr hfits⟩

/-- A client whose program has a name of more than 512 characters reuses a
token without consequences. -/
theorem reuse_with_long_agent : ∃ s record session,
    Reachable sampleDeployment s ∧
      Reusable sampleDeployment (s.world []) firstRefreshToken sampleIds record session ∧
      ¬FamilyKilled sampleIds (s.world [])
        ((AuthService.refreshTokens sampleDeployment firstRefreshToken (some "198.51.100.7")
          longUserAgent).run World.perform (s.world [])).1
        ((AuthService.refreshTokens sampleDeployment firstRefreshToken (some "198.51.100.7")
          longUserAgent).run World.perform (s.world [])).2 := by
  obtain ⟨s,record,session,hreach,hreusable⟩ := exists_reusable
  refine ⟨s,record,session,hreach,hreusable,fun hkilled => ?_⟩
  have hend := yields_refreshReused (w := s.world []) (some "198.51.100.7")
    longUserAgent hreach.sound hreusable
  have hlong : ¬Auditable (some "198.51.100.7") longUserAgent := by
    simp [Auditable,fits_longUserAgent]
  rcases hend with ⟨_,he⟩ | ⟨hfits,_⟩
  · exact absurd (he.symm.trans hkilled.raised) nofun
  · exact hlong hfits

end Samples

end BackendPlatform.TokenReuse
