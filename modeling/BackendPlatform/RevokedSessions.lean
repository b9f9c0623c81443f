import BackendPlatform.RequestFrames

/-!
# Revoked sessions

Once a session is revoked it stays revoked, its family is never refreshed again
and the marker in Redis outlives every access token of the session. A protected
request looks for the marker after it has decoded its token; one whose token
expires in between may find no marker any more.
-/

set_option autoImplicit false

namespace BackendPlatform.RevokedSessions

open ProgramTrees TransactionalTables ExpiringStore
open AuthRecords AuthEffects AuthRepositories AuthServices AuthFlows AuthFootprints
open ServerRuns ReachableStates SessionMarkers RequestFrames RefreshTokenService JWTService
open Endpoints (getCurrentUser ensureAccessSessionActive)

section Watches

/-- The marker of a session lasts until an access token has expired. -/
def Covered (env : Environment) (sessionId : UUID) (payload : TokenPayload) : Prop :=
  ∃ entry,env.redis (marker sessionId.str)=some entry ∧
    ∀ e,entry.expiresAt=some e → seconds payload.exp ≤ e

/-- Every access token expires before a marker set now. -/
def Lifetimes (d : Deployment) (env : Environment) : Prop :=
  ∀ payload∈env.issued,payload.type=.access →
    seconds payload.exp ≤ env.clock+seconds (revocationTtl d)

/-- Sessions and tokens belong together, some sessions are known to be revoked,
and the markers of revoked sessions outlive their access tokens, except for
sessions that are still to be marked. -/
structure Watch (d : Deployment) (R : UUID → UUID → Prop) (U : UUID → Prop) (env : Environment)
    (db : Database authSchema) : Prop where
  /-- Session ids are unique. -/
  ids : ∀ a∈sessionsOf db,∀ b∈sessionsOf db,a.id=b.id → a=b
  /-- A family belongs to one session. -/
  families : ∀ a∈sessionsOf db,∀ b∈sessionsOf db,a.refreshFamilyId=b.refreshFamilyId → a=b
  /-- Sessions and families have been drawn. -/
  drawn : ∀ a∈sessionsOf db,a.id.int<env.draws ∧ a.refreshFamilyId.int<env.draws
  /-- A token names the session of its family. -/
  owners : ∀ r∈tokensOf db,∃ s∈sessionsOf db,s.refreshFamilyId=r.familyId ∧ Carries d r s.id
  /-- Known sessions are revoked. -/
  revoked : ∀ id familyId,R id familyId → ∃ s∈sessionsOf db,s.id=id ∧
    s.refreshFamilyId=familyId ∧ s.revokedAt≠none
  /-- Markers outlive access tokens. -/
  covered : ∀ s∈sessionsOf db,s.revokedAt≠none → ¬U s.id → ∀ payload∈env.issued,
    payload.type=.access → payload.sid=some s.id.str → Covered env s.id payload

/-- Nothing is signed, no marker changes and time does not go back. -/
structure Calm (env env' : Environment) : Prop where
  /-- The markers. -/
  markers : ∀ sessionId,env'.redis (marker sessionId)=env.redis (marker sessionId)
  /-- The tokens. -/
  issued : env'.issued=env.issued
  /-- The draws. -/
  draws : env.draws ≤ env'.draws
  /-- The clock. -/
  clock : env.clock ≤ env'.clock

/-- An unchanged environment is calm. -/
theorem Calm.refl (env : Environment) : Calm env env :=
  ⟨fun _ => rfl,rfl,Nat.le_refl _,Nat.le_refl _⟩

/-- Two calm stretches make one. -/
theorem Calm.trans {a b c : Environment} (h : Calm a b) (h' : Calm b c) : Calm a c :=
  ⟨fun x => (h'.markers x).trans (h.markers x),h'.issued.trans h.issued,h.draws.trans h'.draws,
    h.clock.trans h'.clock⟩

variable {d : Deployment} {R : UUID → UUID → Prop} {U U' : UUID → Prop} {env env' : Environment}
  {db db' : Database authSchema}

/-- Lifetimes are kept in calm. -/
theorem Lifetimes.calm (h : Lifetimes d env) (hc : Calm env env') : Lifetimes d env' := by
  intro payload hp htype
  rw [hc.issued] at hp
  exact (h payload hp htype).trans (Nat.add_le_add_right hc.clock _)

/-- A covered session stays covered in calm. -/
theorem Covered.calm {sessionId : UUID} {payload : TokenPayload}
    (h : Covered env sessionId payload) (hc : Calm env env') : Covered env' sessionId payload := by
  obtain ⟨entry,hentry,hlast⟩ := h
  exact ⟨entry,(hc.markers _).trans hentry,hlast⟩

/-- The watch reads two tables, the draws, the markers and the tokens. -/
theorem Watch.calm (h : Watch d R U env db) (hc : Calm env env')
    (htokens : tokensOf db'=tokensOf db) (hsessions : sessionsOf db'=sessionsOf db) :
    Watch d R U env' db' := by
  constructor
  · rw [hsessions]
    exact h.ids
  · rw [hsessions]
    exact h.families
  · rw [hsessions]
    intro a ha
    have hdrawn := h.drawn a ha
    have hmore := hc.draws
    omega
  · rw [htokens,hsessions]
    exact h.owners
  · rw [hsessions]
    exact h.revoked
  · rw [hsessions,hc.issued]
    intro s hs hrevoked hmarked payload hp htype hsid
    exact (h.covered s hs hrevoked hmarked payload hp htype hsid).calm hc

/-- More sessions may be waiting for their marker. -/
theorem Watch.mono (h : Watch d R U env db) (hU : ∀ x,U x → U' x) : Watch d R U' env db :=
  ⟨h.ids,h.families,h.drawn,h.owners,h.revoked,
    fun s hs hr hu => h.covered s hs hr fun hx => hu (hU _ hx)⟩

/-- Revocations keep the watch, up to the markers of the sessions they revoke. -/
theorem Watch.revise (h : Watch d R U env db) {f : RefreshToken → RefreshToken}
    {g : UserSession → UserSession} (hf : KeepsToken f) (hg : KeepsSession g)
    (htokens : tokensOf db'=(tokensOf db).map f) (hsessions : sessionsOf db'=(sessionsOf db).map g)
    (hU : ∀ x,U x → U' x)
    (hnew : ∀ s∈sessionsOf db,s.revokedAt=none → (g s).revokedAt≠none → U' s.id) :
    Watch d R U' env db' := by
  constructor
  · rw [hsessions]
    intro a ha b hb hab
    obtain ⟨x,hx,rfl⟩ := List.mem_map.mp ha
    obtain ⟨y,hy,rfl⟩ := List.mem_map.mp hb
    rw [hg.id,hg.id] at hab
    rw [h.ids x hx y hy hab]
  · rw [hsessions]
    intro a ha b hb hab
    obtain ⟨x,hx,rfl⟩ := List.mem_map.mp ha
    obtain ⟨y,hy,rfl⟩ := List.mem_map.mp hb
    rw [hg.refreshFamilyId,hg.refreshFamilyId] at hab
    rw [h.families x hx y hy hab]
  · rw [hsessions]
    intro a ha
    obtain ⟨x,hx,rfl⟩ := List.mem_map.mp ha
    rw [hg.id,hg.refreshFamilyId]
    exact h.drawn x hx
  · rw [htokens,hsessions]
    intro r hr
    obtain ⟨x,hx,rfl⟩ := List.mem_map.mp hr
    obtain ⟨s,hs,hfam,payload,encoding,hhash,hjti,hsid⟩ := h.owners x hx
    refine ⟨g s,List.mem_map.mpr ⟨s,hs,rfl⟩,?_,payload,encoding,?_,?_,?_⟩
    · rw [hg.refreshFamilyId,hf.familyId,hfam]
    · rw [hf.tokenHash,hhash]
    · rw [hf.jti,hjti]
    · rw [hg.id,hsid]
  · rw [hsessions]
    intro id familyId hr
    obtain ⟨s,hs,hid,hfam,hrevoked⟩ := h.revoked id familyId hr
    exact ⟨g s,List.mem_map.mpr ⟨s,hs,rfl⟩,(hg.id s).trans hid,
      (hg.refreshFamilyId s).trans hfam,hg.revoked s hrevoked⟩
  · rw [hsessions]
    intro s hs hrevoked hmarked
    obtain ⟨x,hx,rfl⟩ := List.mem_map.mp hs
    rw [hg.id] at hmarked ⊢
    by_cases hbefore : x.revokedAt=none
    · exact absurd (hnew x hx hbefore hrevoked) hmarked
    · exact h.covered x hx hbefore fun hu => hmarked (hU _ hu)

/-- A new active session with a new family. -/
theorem Watch.addSession (h : Watch d R U env db) {row : UserSession}
    (hid : ∀ a∈sessionsOf db,a.id≠row.id)
    (hfamily : ∀ a∈sessionsOf db,a.refreshFamilyId≠row.refreshFamilyId)
    (hdrawn : row.id.int<env.draws ∧ row.refreshFamilyId.int<env.draws)
    (hactive : row.revokedAt=none) (htokens : tokensOf db'=tokensOf db)
    (hsessions : sessionsOf db'=sessionsOf db++[row]) : Watch d R U env db' := by
  have hcases : ∀ a∈sessionsOf db',a∈sessionsOf db ∨ a=row := by
    intro a ha
    rw [hsessions] at ha
    rcases List.mem_append.mp ha with hold|hnew
    · exact .inl hold
    · exact .inr (List.mem_singleton.mp hnew)
  have hkept : ∀ a∈sessionsOf db,a∈sessionsOf db' := by
    intro a ha
    rw [hsessions]
    exact List.mem_append_left _ ha
  constructor
  · intro a ha b hb hab
    rcases hcases a ha with hold|rfl
    · rcases hcases b hb with hold'|rfl
      · exact h.ids a hold b hold' hab
      · exact absurd hab (hid a hold)
    · rcases hcases b hb with hold'|rfl
      · exact absurd hab.symm (hid b hold')
      · rfl
  · intro a ha b hb hab
    rcases hcases a ha with hold|rfl
    · rcases hcases b hb with hold'|rfl
      · exact h.families a hold b hold' hab
      · exact absurd hab (hfamily a hold)
    · rcases hcases b hb with hold'|rfl
      · exact absurd hab.symm (hfamily b hold')
      · rfl
  · intro a ha
    rcases hcases a ha with hold|rfl
    · exact h.drawn a hold
    · exact hdrawn
  · rw [htokens]
    intro r hr
    obtain ⟨s,hs,howner⟩ := h.owners r hr
    exact ⟨s,hkept s hs,howner⟩
  · intro id familyId hr
    obtain ⟨s,hs,hrest⟩ := h.revoked id familyId hr
    exact ⟨s,hkept s hs,hrest⟩
  · intro s hs hrevoked
    rcases hcases s hs with hold|rfl
    · exact h.covered s hold hrevoked
    · exact absurd hactive hrevoked

/-- A new token that names the session of its family. -/
theorem Watch.addToken (h : Watch d R U env db) {row : RefreshToken} {session : UserSession}
    (hsession : session∈sessionsOf db) (hfamily : session.refreshFamilyId=row.familyId)
    (hcarries : Carries d row session.id) (htokens : tokensOf db'=tokensOf db++[row])
    (hsessions : sessionsOf db'=sessionsOf db) : Watch d R U env db' := by
  refine ⟨?_,?_,?_,?_,?_,?_⟩
  · rw [hsessions]
    exact h.ids
  · rw [hsessions]
    exact h.families
  · rw [hsessions]
    exact h.drawn
  · rw [htokens,hsessions]
    intro r hr
    rcases List.mem_append.mp hr with hold|hnew
    · exact h.owners r hold
    · obtain rfl := List.mem_singleton.mp hnew
      exact ⟨session,hsession,hfamily,hcarries⟩
  · rw [hsessions]
    exact h.revoked
  · rw [hsessions]
    exact h.covered

/-- The environment after a token has been signed. -/
abbrev signed (env : Environment) (payload : TokenPayload) : Environment :=
  {env with issued := payload::env.issued}

/-- Access tokens are signed for active sessions only. -/
theorem Watch.sign (h : Watch d R U env db) {payload : TokenPayload}
    (hactive : payload.type=.access → ∀ s∈sessionsOf db,payload.sid=some s.id.str →
      s.revokedAt=none) : Watch d R U (signed env payload) db := by
  refine ⟨h.ids,h.families,h.drawn,h.owners,h.revoked,?_⟩
  intro s hs hrevoked hmarked p hp htype hsid
  rcases List.mem_cons.mp hp with rfl|hold
  · exact absurd (hactive htype s hs hsid) hrevoked
  · exact h.covered s hs hrevoked hmarked p hold htype hsid

/-- The environment after a marker has been set. -/
abbrev marking (d : Deployment) (env : Environment) (sessionId : UUID) (choice : ℕ) :
    Environment :=
  (env.tick choice).withRedis (env.redis.assign (marker sessionId.str) (.text "1")
    (some (env.clock+choice+seconds (revocationTtl d))))

/-- A new marker outlives every access token. -/
theorem Watch.mark (h : Watch d R U env db) (hl : Lifetimes d env) (sessionId : UUID)
    (choice : ℕ) : Watch d R (fun x => U x ∧ x≠sessionId) (marking d env sessionId choice) db := by
  refine ⟨h.ids,h.families,h.drawn,h.owners,h.revoked,?_⟩
  intro s hs hrevoked hmarked p hp htype hsid
  by_cases hid : s.id=sessionId
  · refine ⟨⟨.text "1",some (env.clock+choice+seconds (revocationTtl d))⟩,?_,?_⟩
    · rw [hid]
      exact Store.assign_self _ _ _ _
    · intro e he
      obtain rfl := Option.some.inj he
      have hbound := hl p hp htype
      omega
  · obtain ⟨entry,hentry,hlast⟩ := h.covered s hs hrevoked (fun hu => hmarked ⟨hu,hid⟩) p hp
      htype hsid
    have hkey : marker s.id.str≠marker sessionId.str := by
      intro he
      exact hid (UUID.str_injective (RedisKey.accessSessionRevoked.inj he))
    exact ⟨entry,(Store.assign_of_ne _ _ _ hkey).trans hentry,hlast⟩

/-- The session a stored token names is the session of its family. -/
theorem Watch.owner (h : Watch d R U env db) {record : RefreshToken}
    (hrecord : record∈tokensOf db) {token : RawToken} {sessionId : UUID} {now : Instant}
    (hhash : record.tokenHash=hashRefreshToken d token) (hnames : Names token sessionId now) :
    ∃ s∈sessionsOf db,s.refreshFamilyId=record.familyId ∧ s.id=sessionId := by
  obtain ⟨s,hs,hfam,payload,encoding,hrow,_,hsid⟩ := h.owners record hrecord
  obtain ⟨payload',encoding',sid,rfl,hsid',hparse,_⟩ := hnames
  have htoken : RawToken.signed payload encoding=.signed payload' encoding' :=
    congrArg Hmac.message (hrow.symm.trans hhash)
  obtain ⟨rfl,_⟩ := RawToken.signed.inj htoken
  obtain rfl : s.id.str=sid := Option.some.inj (hsid.symm.trans hsid')
  rw [UUID.parse_str] at hparse
  exact ⟨s,hs,hfam,Option.some.inj hparse⟩

/-- Rows of one token belong to one family. -/
theorem Watch.family_unique (h : Watch d R U env db) {a b : RefreshToken} (ha : a∈tokensOf db)
    (hb : b∈tokensOf db) (hhash : a.tokenHash=b.tokenHash) : a.familyId=b.familyId := by
  obtain ⟨s,hs,hfam,payload,encoding,hrow,_,hsid⟩ := h.owners a ha
  obtain ⟨s',hs',hfam',payload',encoding',hrow',_,hsid'⟩ := h.owners b hb
  have htoken : RawToken.signed payload encoding=.signed payload' encoding' :=
    congrArg Hmac.message (hrow.symm.trans (hhash.trans hrow'))
  obtain ⟨rfl,_⟩ := RawToken.signed.inj htoken
  have hstr : s.id.str=s'.id.str := Option.some.inj (hsid.symm.trans hsid')
  rw [←hfam,←hfam',h.ids s hs s' hs' (UUID.str_injective hstr)]

end Watches

section Worlds

variable {α β : Type} {p : Action α} {fp : List Access} {d : Deployment}
  {R : UUID → UUID → Prop} {U U' : UUID → Prop} {w w' : World}

/-- The committed tables are watched. -/
structure Secured (d : Deployment) (R : UUID → UUID → Prop) (w : World) : Prop where
  /-- The committed tables. -/
  committed : Watch d R (fun _ => False) w.env w.data.committed
  /-- The lifetimes of the access tokens. -/
  lifetimes : Lifetimes d w.env

/-- The working copy is watched too, except for some sessions that are still
to be marked. -/
structure Guarded (d : Deployment) (R : UUID → UUID → Prop) (U : UUID → Prop) (w : World) : Prop
    extends Secured d R w where
  /-- The working copy. -/
  work : Watch d R U w.env w.data.work

/-- No session is waiting for its marker. -/
abbrev Safe (d : Deployment) (R : UUID → UUID → Prop) (w : World) : Prop :=
  Guarded d R (fun _ => False) w

/-- More sessions to except is a weaker guard. -/
theorem Guarded.mono (h : Guarded d R U w) (hU : ∀ x,U x → U' x) : Guarded d R U' w :=
  ⟨h.toSecured,h.work.mono hU⟩

/-- The tables may change while the environment stays calm. -/
theorem Guarded.calm (h : Guarded d R U w) (hc : Calm w.env w'.env) (hdata : w'.data=w.data) :
    Guarded d R U w' := by
  refine ⟨⟨?_,h.lifetimes.calm hc⟩,?_⟩
  · rw [hdata]
    exact h.committed.calm hc rfl rfl
  · rw [hdata]
    exact h.work.calm hc rfl rfl

/-- An access that is neither one to sessions, tokens and markers nor a
signature. -/
abbrev Unsigned (a : Access) : Prop := Outside a ∧ a≠.sign

/-- An access that neither sets a marker nor signs a token. -/
abbrev Silent (a : Access) : Prop := a≠.redisWrite .marker ∧ a≠.sign

/-- A silent access is calm. -/
theorem calm_perform {op : Effect} (hop : ∀ a∈accesses op,Silent a) (w : World) :
    Calm w.env (World.perform op w).2.env := by
  cases op with
  | sql stmt => exact Calm.refl _
  | external op =>
    refine ⟨fun sessionId => ?_,?_,Environment.draws_le_perform op _ _,
      Environment.clock_le_perform op _ _⟩
    · have hne : ∀ key,.redisWrite (area key)∈accesses (.external op) →
          marker sessionId≠key := by
        rintro key hk rfl
        exact (hop _ hk).1 rfl
      cases op with
      | redisSet key value expiry =>
        exact Store.assign_of_ne _ _ _ (hne key (List.mem_singleton_self _))
      | redisDelete keys =>
        refine Store.removeAll_of_notMem _ fun hmem => ?_
        exact hne (marker sessionId) (List.mem_map.mpr ⟨_,hmem,rfl⟩) rfl
      | redisIncr key =>
        exact Environment.increment_of_ne _ (hne key (List.mem_singleton_self _))
      | redisExpire key expiry =>
        exact Store.retime_of_ne _ _ _ (hne key (List.mem_singleton_self _))
      | _ => rfl
    · cases op with
      | sign payload => exact absurd rfl (hop .sign (List.mem_singleton_self _)).2
      | _ => rfl

/-- A silent part of a request is calm. -/
theorem yields_calm (hp : Inside p fp) (hfp : ∀ a∈fp,Silent a) (w : World) :
    Yields p w fun _ w' => Calm w.env w'.env :=
  Program.ensures_within (fun w w' => Calm w.env w'.env) (fun w => Calm.refl w.env)
    (by intro _ _ _ h h'; exact h.trans h')
    (fun _ w hop => calm_perform (fun a ha => hfp a (hop a ha)) w) hp w

/-- Other accesses keep the watch; a commit needs all markers. -/
theorem guarded_perform {op : Effect} (hop : ∀ a∈accesses op,Unsigned a)
    (hcommit : .commit∈accesses op → ∀ x,¬U x) (h : Guarded d R U w) :
    Guarded d R U (World.perform op w).2 := by
  have hc : Calm w.env (World.perform op w).2.env := by
    refine calm_perform (fun a ha => ⟨?_,(hop a ha).2⟩) w
    rintro rfl
    exact (hop _ ha).1 (by simp)
  have hlifetimes := h.lifetimes.calm hc
  have hcommitted : Watch d R (fun _ => False) (World.perform op w).2.env w.data.committed :=
    h.committed.calm hc rfl rfl
  by_cases hrollback : op=.sql .rollback
  · subst hrollback
    exact ⟨⟨hcommitted,hlifetimes⟩,hcommitted.mono fun _ hx => hx.elim⟩
  · have hs : Still w (World.perform op w).2 := by
      refine still_perform (fun a ha => ⟨(hop a ha).1,?_⟩) w
      rintro rfl
      cases op with
      | external op => cases op <;> simp [accesses] at ha
      | sql stmt => cases stmt <;> simp_all [accesses]
    have hwork : Watch d R U (World.perform op w).2.env (World.perform op w).2.data.work :=
      h.work.calm hc hs.tokens hs.sessions
    refine ⟨⟨?_,hlifetimes⟩,hwork⟩
    cases op with
    | external op => exact hcommitted
    | sql stmt =>
      by_cases hpublish : stmt=.commit
      · subst hpublish
        exact h.work.mono fun x hx => hcommit (List.mem_singleton_self _) x hx
      · have hsame : (World.perform (.sql stmt) w).2.data.committed=w.data.committed :=
          Transaction.perform_committed w.data hpublish
        rw [hsame]
        exact h.committed

/-- A part that signs nothing keeps the world safe. -/
theorem yields_safe (hp : Inside p fp) (hfp : ∀ a∈fp,Unsigned a) (h : Safe d R w) :
    Yields p w fun _ w' => Safe d R w' := by
  have hkeep : Yields p w fun _ w' => Safe d R w → Safe d R w' :=
    Program.ensures_within (fun w w' => Safe d R w → Safe d R w') (fun _ h => h)
      (by intro _ _ _ h h' hg; exact h' (h hg))
      (fun _ _ hop hg => guarded_perform (fun a ha => hfp a (hop a ha)) (fun _ _ => id) hg) hp w
  exact hkeep h

/-- A sequence whose first part keeps the watch. -/
theorem safe_bind {f : α → Action β} {Q : Except Failure β → World → Prop} (hp : Inside p fp)
    (hfp : ∀ a∈fp,Unsigned a) (h : Safe d R w) (hok : ∀ a w',Safe d R w' → Yields (f a) w' Q)
    (herror : ∀ e w',Safe d R w' → Q (.error e) w') : Yields (p.bind f) w Q :=
  (yields_safe hp hfp h).bind (fun a w' hw => hok a w' hw) fun e w' hw => herror e w' hw

/-- A marker is set for one session. -/
theorem yields_marker (sessionId : UUID) (h : Guarded d R U w) :
    Yields (markAccessSessionRevoked d sessionId) w fun o w' => o=.ok () ∧
      Guarded d R (fun x => U x ∧ x≠sessionId) w' := by
  have hpos : revocationTtl d≠0 := by
    unfold revocationTtl
    omega
  unfold markAccessSessionRevoked redisSet
  rw [if_neg hpos]
  have hcommitted := h.committed.mark h.lifetimes sessionId (w.choices.headD 0)
  have hlifetimes : Lifetimes d (marking d w.env sessionId (w.choices.headD 0)) := by
    intro payload hp htype
    exact (h.lifetimes payload hp htype).trans (Nat.add_le_add_right (Nat.le_add_right _ _) _)
  exact ⟨rfl,⟨hcommitted.mono fun _ hx => hx.1,hlifetimes⟩,h.work.mark h.lifetimes sessionId _⟩

/-- Markers are set for a list of sessions. -/
theorem yields_markers (sessionIds : List UUID) (h : Guarded d R U w) :
    Yields (markAccessSessionsRevoked d sessionIds) w fun o w' => o=.ok () ∧
      Guarded d R (fun x => U x ∧ x∉sessionIds) w' := by
  induction sessionIds generalizing U w with
  | nil => exact ⟨rfl,h.mono fun x hx => ⟨hx,List.not_mem_nil⟩⟩
  | cons sessionId rest ih =>
    refine (yields_marker sessionId h).bind (fun _ w₁ h₁ => ?_)
      fun e w₁ h₁ => absurd h₁.1 (by rintro ⟨⟩)
    refine (ih h₁.2).mono fun o w₂ h₂ => ⟨h₂.1,h₂.2.mono fun x hx => ?_⟩
    exact ⟨hx.1.1,fun hmem => (List.mem_cons.mp hmem).elim hx.1.2 hx.2⟩

end Worlds

section Issues

variable {d : Deployment} {R : UUID → UUID → Prop} {w : World} {ip ua : Option String}

/-- A drawn identifier. -/
theorem yields_drawn (h : Safe d R w) : Yields uuid4 w fun o w' =>
    o=.ok ⟨w.env.draws⟩ ∧ w'.data=w.data ∧ w'.env.draws=w.env.draws+1 ∧ Safe d R w' := by
  have hdrawn : Safe d R (World.perform (.external .draw) w).2 :=
    guarded_perform (by decide) (fun _ _ => id) h
  exact ⟨rfl,rfl,rfl,hdrawn⟩

/-- The signature of a token. -/
theorem yields_sign {payload : TokenPayload} (h : Safe d R w)
    (hlast : payload.type=.access → seconds payload.exp ≤ w.env.clock+seconds (revocationTtl d))
    (hwork : payload.type=.access → ∀ s∈sessionsOf w.data.work,payload.sid=some s.id.str →
      s.revokedAt=none)
    (hcommitted : payload.type=.access → ∀ s∈sessionsOf w.data.committed,
      payload.sid=some s.id.str → s.revokedAt=none) :
    Yields (external (.sign payload)) w fun o w' => o=.ok (.signed payload 0) ∧ w'.data=w.data ∧
      Safe d R w' := by
  refine ⟨rfl,rfl,⟨h.committed.sign hcommitted,?_⟩,h.work.sign hwork⟩
  intro p hp htype
  rcases List.mem_cons.mp hp with rfl|hold
  · exact hlast htype
  · exact h.lifetimes p hold htype

/-- An access token for a session that is not revoked. -/
theorem yields_accessToken (userId sessionId : UUID) (h : Safe d R w)
    (hwork : ∀ s∈sessionsOf w.data.work,s.id=sessionId → s.revokedAt=none)
    (hcommitted : ∀ s∈sessionsOf w.data.committed,s.id=sessionId → s.revokedAt=none) :
    Yields (issueAccessToken d userId sessionId) w fun _ w' => Safe d R w' ∧ w'.data=w.data := by
  have hnow : Yields utcNow w fun o w' => o=.ok (w.env.clock+w.choices.headD 0) ∧
      w'.data=w.data ∧ w'.env.clock=w.env.clock+w.choices.headD 0 ∧ Safe d R w' :=
    ⟨rfl,rfl,rfl,yields_safe inside_utcNow (by decide) h⟩
  refine hnow.bind (fun now w₁ h₁ => ?_) fun e w₁ h₁ => absurd h₁.1 (by rintro ⟨⟩)
  obtain ⟨hinstant,hdata₁,hclock₁,hsafe₁⟩ := h₁
  obtain rfl := Except.ok.inj hinstant
  have hdraw : Yields uuid4 w₁ fun o w' => (∃ jti,o=.ok jti) ∧ w'.data=w₁.data ∧
      w'.env.clock=w₁.env.clock ∧ Safe d R w' :=
    ⟨⟨_,rfl⟩,rfl,rfl,(yields_drawn hsafe₁).2.2.2⟩
  refine hdraw.bind (fun jti w₂ h₂ => ?_) fun e w₂ h₂ => absurd h₂.1 (by rintro ⟨_,⟨⟩⟩)
  obtain ⟨_,hdata₂,hclock₂,hsafe₂⟩ := h₂
  have hdata : w₂.data=w.data := hdata₂.trans hdata₁
  refine (yields_sign hsafe₂ (fun _ => ?_) (fun _ s hs hsid => ?_) fun _ s hs hsid => ?_).bind
    (fun token w₃ h₃ => ⟨h₃.2.2,h₃.2.1.trans hdata⟩) fun e w₃ h₃ => ⟨h₃.2.2,h₃.2.1.trans hdata⟩
  · show seconds ((w.env.clock+w.choices.headD 0+seconds d.settings.jwtAccessTtlSeconds)/1000000) ≤ _
    rw [hclock₂,hclock₁]
    unfold seconds revocationTtl
    have hfloor := Nat.mul_div_le (w.env.clock+w.choices.headD 0+
      1000000*d.settings.jwtAccessTtlSeconds) 1000000
    have hmax := Nat.le_max_left d.settings.jwtAccessTtlSeconds 60
    omega
  · rw [hdata] at hs
    exact hwork s hs (UUID.str_injective (Option.some.inj hsid)).symm
  · rw [hdata] at hs
    exact hcommitted s hs (UUID.str_injective (Option.some.inj hsid)).symm

/-- A refresh token names its session. -/
theorem yields_refreshToken (userId sessionId familyId jti : UUID) (h : Safe d R w) :
    Yields (issueRefreshToken d userId sessionId familyId jti) w fun o w' => Safe d R w' ∧
      w'.data=w.data ∧ ∀ r,o=.ok r → ∃ payload,r.1=.signed payload 0 ∧ payload.jti=jti.str ∧
        payload.sid=some sessionId.str := by
  have hnow : Yields utcNow w fun o w' => (∃ now,o=.ok now) ∧ w'.data=w.data ∧ Safe d R w' :=
    ⟨⟨_,rfl⟩,rfl,yields_safe inside_utcNow (by decide) h⟩
  refine hnow.bind (fun now w₁ h₁ => ?_) fun e w₁ h₁ => absurd h₁.1 (by rintro ⟨_,⟨⟩⟩)
  obtain ⟨_,hdata₁,hsafe₁⟩ := h₁
  refine (yields_sign hsafe₁ (by rintro ⟨⟩) (by rintro ⟨⟩) (by rintro ⟨⟩)).bind
    (fun token w₂ h₂ => ⟨h₂.2.2,h₂.2.1.trans hdata₁,fun r hr => ?_⟩)
    fun e w₂ h₂ => ⟨h₂.2.2,h₂.2.1.trans hdata₁,by rintro _ ⟨⟩⟩
  obtain rfl := Except.ok.inj hr
  obtain rfl := Except.ok.inj h₂.1
  exact ⟨_,rfl,rfl,rfl⟩

/-- A new session is active and no committed session has its id. -/
theorem yields_newSession (userId familyId : UUID) (h : Safe d R w)
    (hfamily : ∀ a∈sessionsOf w.data.work,a.refreshFamilyId≠familyId)
    (hdrawn : familyId.int<w.env.draws) :
    Yields (SessionRepository.create userId familyId ip ua) w fun o w' => Safe d R w' ∧
      ∀ session,o=.ok session → session.refreshFamilyId=familyId ∧ session.revokedAt=none ∧
        session∈sessionsOf w'.data.work ∧ ∀ s∈sessionsOf w'.data.committed,s.id≠session.id := by
  refine (yields_drawn h).bind (fun id w₁ h₁ => ?_) fun e w₁ h₁ => absurd h₁.1 (by rintro ⟨⟩)
  obtain ⟨hid,hdata,hdraws,hsafe⟩ := h₁
  obtain rfl : id=⟨w.env.draws⟩ := Except.ok.inj hid
  have hfresh : ∀ {U : UUID → Prop} {db : Database authSchema},Watch d R U w.env db →
      ∀ a∈sessionsOf db,a.id≠⟨w.env.draws⟩ := by
    intro U db hw a ha he
    have hlt := (hw.drawn a ha).1
    rw [he] at hlt
    exact absurd hlt (Nat.lt_irrefl _)
  refine (yields_insertRow .userSessions _ w₁).bind (fun _ w₂ h₂ => ?_) fun e w₂ h₂ => ?_
  · rcases h₂ with ⟨_,_,rfl⟩|⟨⟨e,he⟩,_⟩
    · have hbound : w.env.draws<w₁.env.draws ∧ familyId.int<w₁.env.draws := by omega
      refine ⟨⟨⟨hsafe.committed,hsafe.lifetimes⟩,?_⟩,fun session hs => ?_⟩
      · refine hsafe.work.addSession ?_ ?_ hbound rfl (tokensOf_rewrite_userSessions w₁ _)
          (sessionsOf_rewrite_userSessions w₁ _)
        · rw [hdata]
          exact hfresh h.work
        · rw [hdata]
          exact hfamily
      · obtain rfl := Except.ok.inj hs
        refine ⟨rfl,rfl,?_,?_⟩
        · show _∈sessionsOf (World.rewrite w₁ .userSessions _).data.work
          rw [sessionsOf_rewrite_userSessions]
          exact List.mem_append_right _ (List.mem_singleton_self _)
        · show ∀ s∈sessionsOf w₁.data.committed,_
          rw [hdata]
          exact hfresh h.committed
    · cases he
  · rcases h₂ with ⟨he,_⟩|⟨_,rfl⟩
    · cases he
    · exact ⟨hsafe,by rintro _ ⟨⟩⟩

/-- A stored token that names the session of its family. -/
theorem yields_newToken {session : UserSession} {row : RefreshToken} (h : Safe d R w)
    (hsession : session∈sessionsOf w.data.work) (hfamily : session.refreshFamilyId=row.familyId)
    (hcarries : Carries d row session.id) :
    Yields (RefreshTokenRepository.create row) w fun _ w' => Safe d R w' ∧
      sessionsOf w'.data.work=sessionsOf w.data.work ∧ w'.data.committed=w.data.committed := by
  refine (yields_insertRow .refreshTokens row w).mono fun o w' h' => ?_
  rcases h' with ⟨_,_,rfl⟩|⟨_,rfl⟩
  · have hsessions := sessionsOf_rewrite_refreshTokens w (tokensOf w.data.work++[row])
    refine ⟨⟨⟨h.committed,h.lifetimes⟩,?_⟩,hsessions,rfl⟩
    exact h.work.addToken hsession hfamily hcarries (tokensOf_rewrite_refreshTokens w _) hsessions
  · exact ⟨h,rfl,rfl⟩

/-- Tokens for a new session keep the watch. -/
theorem yields_firstTokens (userId : UUID) (h : Safe d R w) :
    Yields (issueForUser d userId ip ua) w fun _ w' => Safe d R w' := by
  refine (yields_drawn h).bind (fun familyId w₁ h₁ => ?_) fun e w₁ h₁ => h₁.2.2.2
  obtain ⟨hid,hdata₁,hdraws,hsafe₁⟩ := h₁
  obtain rfl : familyId=⟨w.env.draws⟩ := Except.ok.inj hid
  have hfamily : ∀ a∈sessionsOf w₁.data.work,a.refreshFamilyId≠⟨w.env.draws⟩ := by
    intro a ha he
    rw [hdata₁] at ha
    have hlt := (h.work.drawn a ha).2
    rw [he] at hlt
    exact absurd hlt (Nat.lt_irrefl _)
  have hdrawn : w.env.draws<w₁.env.draws := by omega
  refine (yields_newSession userId _ hsafe₁ hfamily hdrawn).bind (fun session w₂ h₂ => ?_)
    fun e w₂ h₂ => h₂.1
  obtain ⟨hsafe₂,hsession⟩ := h₂
  obtain ⟨hsf,hactive,hstored,hfresh⟩ := hsession session rfl
  refine (yields_drawn hsafe₂).bind (fun jti w₃ h₃ => ?_) fun e w₃ h₃ => h₃.2.2.2
  obtain ⟨_,hdata₃,_,hsafe₃⟩ := h₃
  refine (yields_refreshToken userId session.id _ jti hsafe₃).bind (fun r w₄ h₄ => ?_)
    fun e w₄ h₄ => h₄.1
  obtain ⟨hsafe₄,hdata₄,hr⟩ := h₄
  obtain ⟨payload,hpayload,hjti,hsid⟩ := hr r rfl
  have hdata : w₄.data=w₂.data := hdata₄.trans hdata₃
  refine (yields_newToken hsafe₄ (hdata ▸ hstored) hsf ⟨payload,0,?_,hjti,hsid⟩).bind
    (fun _ w₅ h₅ => ?_) fun e w₅ h₅ => h₅.1
  · rw [←hpayload]
  · obtain ⟨hsafe₅,hsessions₅,hcommitted₅⟩ := h₅
    refine (yields_accessToken userId session.id hsafe₅ ?_ ?_).bind (fun _ w₆ h₆ => h₆.1)
      fun e w₆ h₆ => h₆.1
    · rw [hsessions₅,hdata]
      intro s hs hsame
      rw [hsafe₂.work.ids s hs session hstored hsame]
      exact hactive
    · rw [hcommitted₅,hdata]
      exact fun s hs hsame => absurd hsame (hfresh s hs)

end Issues

section Revocations

variable {d : Deployment} {R : UUID → UUID → Prop} {U V : UUID → Prop} {w w' : World}
  {ip ua : Option String}

/-- Revoking sessions keeps their identity. -/
theorem keepsSession_revokedSession (q : UserSession → Bool) (now : Instant) :
    KeepsSession (revokedSession q now) := by
  have hkeeps : KeepsSession fun s => {s with revokedAt := some now} :=
    ⟨fun _ => rfl,fun _ => rfl,fun _ _ h => Option.some_ne_none now h⟩
  exact hkeeps.some fun s => q s && s.revokedAt.isNone

/-- Revised tables keep the watch, up to the sessions that get revoked. -/
theorem Guarded.revised {f : RefreshToken → RefreshToken} {g : UserSession → UserSession}
    (h : Guarded d R U w) (hr : Revised f g w w') (hc : Calm w.env w'.env)
    (hU : ∀ x,U x → V x)
    (hnew : ∀ s∈sessionsOf w.data.work,s.revokedAt=none → (g s).revokedAt≠none → V s.id) :
    Guarded d R V w' := by
  refine ⟨⟨?_,h.lifetimes.calm hc⟩,?_⟩
  · rw [hr.committed]
    exact h.committed.calm hc rfl rfl
  · exact (h.work.calm hc rfl rfl).revise hr.keepsToken hr.keepsSession hr.tokens hr.sessions hU
      hnew

/-- A revision of tokens alone. -/
theorem Guarded.revisedTokens {f : RefreshToken → RefreshToken} (h : Guarded d R U w)
    (hr : Revised f (fun s => s) w w') (hc : Calm w.env w'.env) : Guarded d R U w' :=
  h.revised hr hc (fun _ hx => hx) fun _ _ hactive hrevoked => absurd hactive hrevoked

/-- Tokens are revoked. -/
theorem yields_tokensRevoked (q : RefreshToken → Bool) (reason : String) (h : Guarded d R U w) :
    Yields (RefreshTokenRepository.revokeWhere q reason) w fun o w' => o=.ok () ∧
      Guarded d R U w' ∧ sessionsOf w'.data.work=sessionsOf w.data.work := by
  have hcalm := yields_calm (inside_revokeTokensWhere q reason) (by decide) w
  refine ((yields_revokeTokensWhere q reason w).and hcalm).mono fun o w' h' => ?_
  obtain ⟨⟨hok,f,hr,_⟩,hc⟩ := h'
  exact ⟨hok,h.revisedTokens hr hc,by rw [hr.sessions,List.map_id']⟩

/-- Sessions are revoked and wait for their markers. -/
theorem yields_sessionsRevoked (q : UserSession → Bool) (h : Guarded d R U w)
    (hU : ∀ x,U x → V x)
    (hnew : ∀ s∈sessionsOf w.data.work,s.revokedAt=none → q s=true → V s.id) :
    Yields (SessionRepository.revokeWhere q) w fun o w' => o=.ok () ∧ Guarded d R V w' := by
  have hcalm := yields_calm (inside_revokeSessionsWhere q) (by decide) w
  refine ((yields_revokedSessions q w).and hcalm).mono fun o w' h' => ?_
  obtain ⟨⟨hok,hleaves,now,hsessions⟩,hc⟩ := h'
  have htokens : tokensOf w'.data.work=tokensOf w.data.work :=
    hleaves.tables .refreshTokens (by decide)
  have hrevised : Revised (fun r => r) (revokedSession q now) w w' :=
    ⟨keepsToken_id,keepsSession_revokedSession q now,by rw [htokens,List.map_id'],hsessions,
      hleaves.committed,fun x hm hn => hm ((hc.markers x).trans hn),hc.draws⟩
  refine ⟨hok,h.revised hrevised hc hU fun s hs hactive hrevoked => ?_⟩
  refine hnew s hs hactive ?_
  by_contra hq
  rw [revokedSession_same (.inl (Bool.eq_false_iff.mpr hq))] at hrevoked
  exact hrevoked hactive

/-- A family with its session is revoked; the session waits for its marker. -/
theorem yields_familyRevoked {session : UserSession} {familyId sessionId : UUID} (reason : String)
    (h : Safe d R w) (hsession : session∈sessionsOf w.data.work)
    (hfamily : session.refreshFamilyId=familyId) (hid : session.id=sessionId) {α : Type}
    {k : Action α} {Q : Except Failure α → World → Prop}
    (hk : ∀ w',Guarded d R (fun x => x=sessionId) w' → Yields k w' Q) :
    Yields ((RefreshTokenRepository.revokeFamily familyId reason).bind fun _ =>
      (SessionRepository.revokeFamily familyId).bind fun _ => k) w Q := by
  refine (yields_tokensRevoked (fun r => r.familyId==familyId) reason h).bind
    (fun _ w₁ h₁ => ?_) fun e w₁ h₁ => absurd h₁.1 (by rintro ⟨⟩)
  obtain ⟨_,hguarded₁,hsessions₁⟩ := h₁
  refine (yields_sessionsRevoked (V := fun x => x=sessionId) (fun s => s.refreshFamilyId==familyId)
    hguarded₁ (fun _ hx => hx.elim) fun s hs _ hq => ?_).bind (fun _ w₂ h₂ => hk w₂ h₂.2)
    fun e w₂ h₂ => absurd h₂.1 (by rintro ⟨⟩)
  rw [hsessions₁] at hs
  have hsame : s.refreshFamilyId=session.refreshFamilyId := (beq_iff_eq.mp hq).trans hfamily.symm
  rw [h.work.families s hs session hsession hsame,hid]

/-- The row of a presented token was looked up. -/
structure Found (d : Deployment) (R : UUID → UUID → Prop) (w : World) (token : RawToken)
    (ids : RefreshIds) (found : Option RefreshToken) (w' : World) : Prop where
  /-- The watch. -/
  safe : Safe d R w'
  /-- The database is the same. -/
  data : w'.data=w.data
  /-- The token names the session. -/
  names : Names token ids.sessionId w.env.clock
  /-- A found row is stored. -/
  stored : ∀ record,found=some record → record∈tokensOf w.data.work

/-- Rotation and revocation begin with the same checks. -/
theorem yields_found {α : Type} {k : RefreshIds → Option RefreshToken → Action α}
    {Q : Except Failure α → World → Prop} (token : RawToken) (h : Safe d R w)
    (hok : ∀ ids found w',Found d R w token ids found w' → Yields (k ids found) w' Q)
    (herror : ∀ e w',Safe d R w' → NotReuse e → Q (.error e) w') :
    Yields ((decodeAndValidate d token .refresh).bind fun claims =>
      (refreshIds claims).bind fun ids =>
        (RefreshTokenRepository.getByJtiForUpdate ids.tokenJti).bind (k ids)) w Q := by
  have hin := inside_decodeAndValidate d token .refresh
  refine ((yields_safe hin (by decide) h).and ((yields_decodeAndValidate token w).and
    (Program.ensures_raises (raises_decodeAndValidate token) w))).bind
    (fun claims w₁ h₁ => ?_) fun e w₁ h₁ => herror e w₁ h₁.1 (h₁.2.2 e rfl)
  obtain ⟨hsafe₁,⟨hdata,_,hclaims⟩,_⟩ := h₁
  obtain ⟨payload,encoding,htoken,_,hsid,hexp⟩ := hclaims claims rfl
  refine ((yields_refreshIds claims w₁).and
    (Program.ensures_raises (raises_refreshIds claims) w₁)).bind (fun ids w₂ h₂ => ?_)
    fun e w₂ h₂ => herror e w₂ (h₂.1.1 ▸ hsafe₁) (h₂.2 e rfl)
  obtain ⟨⟨rfl,hids⟩,_⟩ := h₂
  obtain ⟨_,sid,hs,hparse⟩ := hids ids rfl
  refine ((yields_getByJtiForUpdate ids.tokenJti w₂).and
    (Program.ensures_raises (raises_getByJtiForUpdate ids.tokenJti) w₂)).bind
    (fun found w₃ h₃ => ?_) fun e w₃ h₃ => herror e w₃ (h₃.1.1 ▸ hsafe₁) (h₃.2 e rfl)
  obtain ⟨⟨rfl,hfound,_⟩,_⟩ := h₃
  refine hok ids found w₃ ⟨hsafe₁,hdata,
    ⟨payload,encoding,sid,htoken,hsid.symm.trans hs,hparse,hexp⟩,fun record he => ?_⟩
  rw [←hdata]
  exact hfound record (congrArg Except.ok he)

end Revocations

section Exchanges

variable {d : Deployment} {R : UUID → UUID → Prop} {w : World} {ip ua : Option String}

/-- A touched session stays active. -/
theorem yields_touched (familyId : UUID) (h : Safe d R w) :
    Yields (SessionRepository.touchFamily familyId) w fun _ w' => Safe d R w' ∧
      w'.data.committed=w.data.committed ∧ ∀ s∈sessionsOf w'.data.work,
        ∃ a∈sessionsOf w.data.work,s.id=a.id ∧ s.revokedAt=a.revokedAt := by
  have hkeeps : KeepsSession fun s => {s with
      lastSeenAt := some (w.env.clock+w.choices.headD 0)} :=
    ⟨fun _ => rfl,fun _ => rfl,fun _ h => h⟩
  have hactive : ∀ s : UserSession,(if s.refreshFamilyId==familyId && s.revokedAt.isNone then
      {s with lastSeenAt := some (w.env.clock+w.choices.headD 0)} else s).revokedAt=
        s.revokedAt := by
    intro s
    split
    · rfl
    · rfl
  have htouch : Yields (SessionRepository.touchFamily familyId) w fun _ w' =>
      Revised (fun r => r) (fun s => if s.refreshFamilyId==familyId && s.revokedAt.isNone then
        {s with lastSeenAt := some (w.env.clock+w.choices.headD 0)} else s) w w' := by
    refine ⟨keepsToken_id,hkeeps.some fun s => s.refreshFamilyId==familyId && s.revokedAt.isNone,
      ?_,sessionsOf_rewrite_userSessions _ _,rfl,fun _ h => h,Nat.le_refl _⟩
    rw [List.map_id']
    exact tokensOf_rewrite_userSessions _ _
  have hcalm := yields_calm (inside_touchFamily familyId) (by decide) w
  refine (htouch.and hcalm).mono fun _ w' h' => ?_
  obtain ⟨hr,hc⟩ := h'
  refine ⟨h.revised hr hc (fun _ hx => hx) fun s _ hnone hrevoked => ?_,hr.committed,
    fun s hs => ?_⟩
  · rw [hactive] at hrevoked
    exact hrevoked hnone
  · rw [hr.sessions] at hs
    obtain ⟨a,ha,rfl⟩ := List.mem_map.mp hs
    exact ⟨a,ha,hr.keepsSession.id a,hactive a⟩

/-- The exchange of a token of an active session. -/
theorem yields_exchanged (record : RefreshToken) {ids : RefreshIds} {session : UserSession}
    (h : Safe d R w) (hsession : session∈sessionsOf w.data.work)
    (hfamily : session.refreshFamilyId=ids.familyId) (hid : session.id=ids.sessionId)
    (hactive : session.revokedAt=none)
    (hcommitted : ∀ s∈sessionsOf w.data.committed,s.id=ids.sessionId → s.revokedAt=none) :
    Yields (exchange d record ids ip ua) w fun _ w' => Safe d R w' := by
  refine (yields_drawn h).bind (fun jti w₁ h₁ => ?_) fun e w₁ h₁ => h₁.2.2.2
  obtain ⟨_,hdata₁,_,hsafe₁⟩ := h₁
  refine (yields_refreshToken ids.userId ids.sessionId ids.familyId jti hsafe₁).bind
    (fun r w₂ h₂ => ?_) fun e w₂ h₂ => h₂.1
  obtain ⟨hsafe₂,hdata₂,hr⟩ := h₂
  obtain ⟨payload,hpayload,hjti,hsid⟩ := hr r rfl
  have hdata : w₂.data=w.data := hdata₂.trans hdata₁
  have hrotated : Yields (RefreshTokenRepository.markRotated record jti) w₂ fun _ w' =>
      Safe d R w' ∧ sessionsOf w'.data.work=sessionsOf w₂.data.work ∧
        w'.data.committed=w₂.data.committed := by
    have hin : Inside (RefreshTokenRepository.markRotated record jti)
        [.clock,.update .refreshTokens] :=
      inside_bind (inside_utcNow.widen rfl) fun _ => (inside_flushUpdate _ _ _).widen rfl
    have hcalm := yields_calm hin (by decide) w₂
    refine ((yields_markRotated record jti w₂).and hcalm).mono fun _ w' h' => ?_
    obtain ⟨⟨f,hrevised,_⟩,hc⟩ := h'
    exact ⟨hsafe₂.revisedTokens hrevised hc,by rw [hrevised.sessions,List.map_id'],
      hrevised.committed⟩
  refine hrotated.bind (fun _ w₃ h₃ => ?_) fun e w₃ h₃ => h₃.1
  obtain ⟨hsafe₃,hsessions₃,hcommitted₃⟩ := h₃
  have hstored₃ : session∈sessionsOf w₃.data.work := by
    rw [hsessions₃,hdata]
    exact hsession
  refine (yields_newToken hsafe₃ hstored₃ hfamily ⟨payload,0,?_,hjti,?_⟩).bind
    (fun _ w₄ h₄ => ?_) fun e w₄ h₄ => h₄.1
  · rw [←hpayload]
  · rw [hid]
    exact hsid
  obtain ⟨hsafe₄,hsessions₄,hcommitted₄⟩ := h₄
  refine (yields_touched ids.familyId hsafe₄).bind (fun _ w₅ h₅ => ?_) fun e w₅ h₅ => h₅.1
  obtain ⟨hsafe₅,hcommitted₅,htouched⟩ := h₅
  refine (yields_accessToken ids.userId ids.sessionId hsafe₅ ?_ ?_).bind (fun _ w₆ h₆ => h₆.1)
    fun e w₆ h₆ => h₆.1
  · intro s hs hsame
    obtain ⟨a,ha,haid,hrevoked⟩ := htouched s hs
    rw [hsessions₄] at ha
    rw [hrevoked,hsafe₃.work.ids a ha session hstored₃ (haid.symm.trans (hsame.trans hid.symm))]
    exact hactive
  · rw [hcommitted₅,hcommitted₄,hcommitted₃,hdata]
    exact hcommitted

/-- How a rotation ends. -/
structure Turned (d : Deployment) (R : UUID → UUID → Prop) (w : World) (token : RawToken)
    (o : Except Failure TokenPair) (w' : World) : Prop where
  /-- Only a detected reuse leaves a session without its marker. -/
  safe : (∀ e,o=.error e → NotReuse e) → Safe d R w'
  /-- Its session is the one that the failure names. -/
  reused : ∀ sessionId familyId,o=.error (.tokenReuseDetected sessionId familyId) →
    Guarded d R (fun x => x=sessionId) w'
  /-- Only tokens of active sessions are renewed. -/
  renewed : ∀ pair,o=.ok pair → ∃ record∈tokensOf w.data.work,
    record.tokenHash=hashRefreshToken d token ∧ ∃ s∈sessionsOf w.data.work,
      s.refreshFamilyId=record.familyId ∧ s.revokedAt=none

/-- A failure other than a reused token leaves a safe world. -/
theorem Turned.failed {w' : World} {token : RawToken} {e : Failure} (h : Safe d R w')
    (he : NotReuse e) : Turned d R w token (.error e) w' :=
  ⟨fun _ => h,fun _ _ hs => absurd (Except.error.inj hs) (he _ _),by rintro _ ⟨⟩⟩

/-- A rotation leaves a safe world, with its family revoked for a reused token.
-/
theorem yields_turned (token : RawToken) (h : Safe d R w) (hsame : w.data.committed=w.data.work) :
    Yields (rotate d token ip ua) w (Turned d R w token) := by
  have hinvalid : ∀ message,NotReuse (.invalidToken message) := by
    rintro message _ _ ⟨⟩
  refine yields_found token h (fun ids found w₁ hfound => ?_) fun e w' hg he => .failed hg he
  obtain ⟨hsafe₁,hdata,hnames,hstored⟩ := hfound
  cases found with
  | none => exact .failed hsafe₁ (hinvalid _)
  | some record =>
    have hrecord : record∈tokensOf w₁.data.work := hdata ▸ hstored record rfl
    simp only [Program.monad_throw,Program.monad_bind,Program.raise_bind]
    split
    · exact .failed hsafe₁ (hinvalid _)
    · rename_i hclaimed
      split
      · exact .failed hsafe₁ (hinvalid _)
      · rename_i hhash
        have hfam : record.familyId=ids.familyId := by tauto
        obtain ⟨session,hsession,hsf,hid⟩ := hsafe₁.work.owner hrecord (not_not.mp hhash) hnames
        refine (yields_isFamilyActive ids.familyId w₁).bind (fun active w₂ h₂ => ?_)
          fun e w₂ h₂ => absurd h₂.2 (by rintro ⟨_,⟨⟩,_⟩)
        obtain ⟨rfl,_,hok,hactive⟩ := h₂
        obtain rfl := Except.ok.inj hok
        split
        · exact .failed hsafe₁ (hinvalid _)
        · rename_i htrue
          obtain ⟨active,hmem,haf,hnone⟩ := hactive (by simpa using htrue)
          obtain rfl : active=session :=
            hsafe₁.work.families active hmem session hsession (haf.trans (hfam ▸ hsf.symm))
          refine ((yields_safe inside_utcNow (by decide) hsafe₁).and (yields_utcNow w₂)).bind
            (fun now w₃ h₃ => ?_) fun e w₃ h₃ => absurd h₃.2.1 (by rintro ⟨_,⟨⟩⟩)
          obtain ⟨hsafe₃,_,hdata₃,_⟩ := h₃
          have hsession₃ : active∈sessionsOf w₃.data.work := hdata₃ ▸ hsession
          split
          · exact .failed hsafe₃ (hinvalid _)
          · split
            · refine yields_familyRevoked "reuse_detected" hsafe₃ hsession₃ haf hid
                fun w₄ hguarded => ?_
              refine ⟨fun he => absurd rfl (he _ rfl _ _),fun sid fid he => ?_,by rintro _ ⟨⟩⟩
              obtain ⟨rfl,rfl⟩ := Failure.tokenReuseDetected.inj (Except.error.inj he)
              exact hguarded
            · have hcommitted : ∀ s∈sessionsOf w₃.data.committed,s.id=ids.sessionId →
                  s.revokedAt=none := by
                rw [hdata₃,hdata,hsame]
                intro s hs hsid
                rw [h.work.ids s hs active (hdata ▸ hsession) (hsid.trans hid.symm)]
                exact hnone
              refine ((yields_exchanged record hsafe₃ hsession₃ haf hid hnone
                hcommitted).and (Program.ensures_raises (raises_exchange record ids) w₃)).mono
                fun o w₄ h₄ => ?_
              obtain ⟨hsafe₄,hraises⟩ := h₄
              refine ⟨fun _ => hsafe₄,fun _ _ he =>
                absurd rfl (notReuse_of_databaseFailure (hraises _ he) _ _),fun pair _ => ?_⟩
              exact ⟨record,hdata ▸ hrecord,not_not.mp hhash,active,hdata ▸ hsession,
                haf.trans hfam.symm,hnone⟩

/-- The handler of a failed rotation marks the session of a reused token. -/
theorem yields_failed {e : Failure} {w₀ : World} {token : RawToken}
    (h : Turned d R w₀ token (.error e) w) :
    Yields (AuthService.refreshFailed d ip ua e) w fun _ w' => Secured d R w' := by
  cases e with
  | tokenReuseDetected sessionId familyId =>
    refine (yields_marker sessionId (h.reused sessionId familyId rfl)).bind (fun _ w₁ h₁ => ?_)
      fun e w₁ h₁ => absurd h₁.1 (by rintro ⟨⟩)
    have hsafe₁ : Safe d R w₁ := h₁.2.mono fun x hx => hx.2 hx.1
    refine safe_bind (inside_logEvent _ _ _ _ _ _ _ _) (by decide) hsafe₁ (fun _ w₂ h₂ => ?_)
      fun e w₂ h₂ => h₂.toSecured
    exact safe_bind inside_commit (by decide) h₂ (fun _ w₃ h₃ => h₃.toSecured)
      fun e w₃ h₃ => h₃.toSecured
  | invalidToken message =>
    have hsafe : Safe d R w := by
      refine h.safe ?_
      rintro _ ⟨⟩ _ _ ⟨⟩
    refine safe_bind (inside_logEvent _ _ _ _ _ _ _ _) (by decide) hsafe (fun _ w₂ h₂ => ?_)
      fun e w₂ h₂ => h₂.toSecured
    exact safe_bind inside_commit (by decide) h₂ (fun _ w₃ h₃ => h₃.toSecured)
      fun e w₃ h₃ => h₃.toSecured
  | _ =>
    have hsafe : Safe d R w := by
      refine h.safe ?_
      rintro _ ⟨⟩ _ _ ⟨⟩
    exact hsafe.toSecured

/-- A refresh renews only tokens of active sessions. -/
theorem yields_refresh (token : RawToken) (h : Safe d R w) (hsame : w.data.committed=w.data.work) :
    Yields (AuthService.refreshTokens d token ip ua) w fun o w' => Secured d R w' ∧
      ∀ pair,o=.ok pair → ∃ record∈tokensOf w.data.work,
        record.tokenHash=hashRefreshToken d token ∧ ∃ s∈sessionsOf w.data.work,
          s.refreshFamilyId=record.familyId ∧ s.revokedAt=none := by
  have htry : Yields (tryCatch (rotate d token ip ua) (AuthService.refreshFailed d ip ua)) w
      fun o w' => Secured d R w' ∧ ∀ pair,o=.ok pair → Turned d R w token (.ok pair) w' := by
    refine (yields_turned token h hsame).handle (fun pair w₁ h₁ => ?_) fun e w₁ h₁ => ?_
    · have hsafe : Safe d R w₁ := h₁.safe (by rintro _ ⟨⟩)
      exact ⟨hsafe.toSecured,fun pair' hp => hp ▸ h₁⟩
    · exact ((yields_failed h₁).and (yields_refreshFailed_error e w₁)).mono fun o w₂ h₂ =>
        ⟨h₂.1,fun pair hp => absurd hp (h₂.2 pair)⟩
  refine htry.bind (fun pair w₁ h₁ => ?_) fun e w₁ h₁ => ⟨h₁.1,by rintro _ ⟨⟩⟩
  have hturned := h₁.2 pair rfl
  have hsafe : Safe d R w₁ := hturned.safe (by rintro _ ⟨⟩)
  refine safe_bind (inside_logEvent _ _ _ _ _ _ _ _) (by decide) hsafe (fun _ w₂ h₂ => ?_)
    fun e w₂ h₂ => ⟨h₂.toSecured,by rintro _ ⟨⟩⟩
  exact safe_bind inside_commit (by decide) h₂
    (fun _ w₃ h₃ => ⟨h₃.toSecured,fun _ _ => hturned.renewed pair rfl⟩)
    fun e w₃ h₃ => ⟨h₃.toSecured,by rintro _ ⟨⟩⟩

end Exchanges

section Closings

variable {d : Deployment} {R : UUID → UUID → Prop} {w : World} {ip ua : Option String}

/-- A revocation leaves at most the session of its token without a marker. -/
theorem yields_revocation (token : RawToken) (revokeFamily : Bool) (reason : String)
    (h : Safe d R w) :
    Yields (revoke d token revokeFamily reason) w fun o w' => Secured d R w' ∧
      (o=.ok none → Safe d R w') ∧ ∀ result pending,o=.ok (some (result,pending)) →
        Guarded d R (fun x => x=result.sessionId) w' := by
  have hfail : ∀ w' e,Safe d R w' → Secured d R w' ∧
      ((Except.error e : Except Failure (Option (RefreshRevocationResult×Option PendingRevocation)))=
        .ok none → Safe d R w') ∧ ∀ result pending,(Except.error e : Except Failure
          (Option (RefreshRevocationResult×Option PendingRevocation)))=
            .ok (some (result,pending)) → Guarded d R (fun x => x=result.sessionId) w' :=
    fun w' e hg => ⟨hg.toSecured,fun _ => hg,by rintro _ _ ⟨⟩⟩
  refine yields_found token h (fun ids found w₁ hfound => ?_) fun e w' hg _ => hfail w' e hg
  obtain ⟨hsafe₁,hdata,hnames,hstored⟩ := hfound
  cases found with
  | none => exact ⟨hsafe₁.toSecured,fun _ => hsafe₁,by rintro _ _ ⟨⟩⟩
  | some record =>
    have hrecord : record∈tokensOf w₁.data.work := hdata ▸ hstored record rfl
    simp only [Program.monad_throw,Program.monad_bind,Program.raise_bind]
    split
    · exact hfail _ _ hsafe₁
    · rename_i hhash
      split
      · exact hfail _ _ hsafe₁
      · rename_i hfamily
        split
        · exact hfail _ _ hsafe₁
        · obtain ⟨session,hsession,hsf,hid⟩ :=
            hsafe₁.work.owner hrecord (not_not.mp hhash) hnames
          split
          · refine yields_familyRevoked reason hsafe₁ hsession
              (hsf.trans (not_not.mp hfamily)) hid fun w₂ hguarded => ?_
            refine ⟨hguarded.toSecured,by rintro ⟨⟩,fun result pending hp => ?_⟩
            obtain ⟨rfl,rfl⟩ := Prod.mk.inj (Option.some.inj (Except.ok.inj hp))
            exact hguarded
          · refine safe_bind inside_utcNow (by decide) hsafe₁ (fun now w₂ h₂ => ?_)
              fun e w₂ h₂ => hfail w₂ e h₂
            exact ⟨h₂.toSecured,by rintro ⟨⟩,fun _ _ _ => h₂.mono fun _ hx => hx.elim⟩

/-- How a sign-out ends. -/
theorem yields_signOut (token : RawToken) (revokeFamily : Bool) (h : Safe d R w) :
    Yields (AuthService.revokeRefreshToken d token revokeFamily ip ua) w fun _ w' =>
      Secured d R w' := by
  refine (yields_revocation token revokeFamily "logout" h).bind (fun result w₁ h₁ => ?_)
    fun e w₁ h₁ => h₁.1
  obtain ⟨_,hnone,hsome⟩ := h₁
  cases result with
  | none =>
    refine safe_bind (inside_logEvent _ _ _ _ _ _ _ _) (by decide) (hnone rfl) (fun _ w₂ h₂ => ?_)
      fun e w₂ h₂ => h₂.toSecured
    exact (yields_safe inside_commit (by decide) h₂).mono fun _ _ h₃ => h₃.toSecured
  | some result =>
    obtain ⟨revocation,pending⟩ := result
    refine (yields_marker revocation.sessionId (hsome revocation pending rfl)).bind
      (fun _ w₂ h₂ => ?_) fun e w₂ h₂ => absurd h₂.1 (by rintro ⟨⟩)
    have hsafe₂ : Safe d R w₂ := h₂.2.mono fun x hx => hx.2 hx.1
    have hflush : Yields (flushRevocation pending) w₂ fun _ w' => Safe d R w' := by
      cases pending with
      | none => exact hsafe₂
      | some pending =>
        have hkeeps : KeepsToken fun r => {r with
            revokedAt := some pending.now, revocationReason := some pending.reason,
            replacedByJti := none} :=
          ⟨fun _ => rfl,fun _ => rfl,fun _ => rfl,fun _ _ h => Option.some_ne_none _ h⟩
        have hcalm := yields_calm (inside_flushRevocation (some pending)) (by decide) w₂
        exact ((yields_flushToken (fun r => r.jti==pending.token.jti) hkeeps w₂).and hcalm).mono
          fun _ w' h' => hsafe₂.revisedTokens h'.1 h'.2
    refine hflush.bind (fun _ w₃ h₃ => ?_) fun e w₃ h₃ => h₃.toSecured
    refine safe_bind (inside_logEvent _ _ _ _ _ _ _ _) (by decide) h₃ (fun _ w₄ h₄ => ?_)
      fun e w₄ h₄ => h₄.toSecured
    exact safe_bind inside_commit (by decide) h₄ (fun _ w₅ h₅ => h₅.toSecured)
      fun e w₅ h₅ => h₅.toSecured

/-- A changed password marks every session it revokes. -/
theorem yields_passwordChange (user : LoadedUser) (record : PasswordResetToken) (now : Instant)
    (newPassword identifier account : String) (h : Safe d R w) :
    Yields (PasswordResetService.changePassword d user record now newPassword identifier account
      ip ua) w fun _ w' => Secured d R w' := by
  refine safe_bind (inside_hashPassword d newPassword) (by decide) h (fun hash w₁ h₁ => ?_)
    fun e w₁ h₁ => h₁.toSecured
  refine safe_bind (inside_flushUpdate .users _ _) (by decide) h₁ (fun _ w₂ h₂ => ?_)
    fun e w₂ h₂ => h₂.toSecured
  refine safe_bind (inside_flushUpdate .passwordResetTokens _ _) (by decide) h₂
    (fun _ w₃ h₃ => ?_) fun e w₃ h₃ => h₃.toSecured
  have hlist : Yields (SessionRepository.listActiveSessionIdsForUser user.row.id) w₃ fun o w' =>
      o=.ok (activeIds w₃ user.row.id) ∧ w'=w₃ := ⟨rfl,rfl⟩
  refine hlist.bind (fun ids w₄ h₄ => ?_) fun e w₄ h₄ => absurd h₄.1 (by rintro ⟨⟩)
  obtain ⟨hids,rfl⟩ := h₄
  obtain rfl := Except.ok.inj hids
  refine (yields_tokensRevoked (fun r => r.userId==user.row.id) "password_reset" h₃).bind
    (fun _ w₅ h₅ => ?_) fun e w₅ h₅ => absurd h₅.1 (by rintro ⟨⟩)
  obtain ⟨_,hguarded₅,hsessions₅⟩ := h₅
  refine (yields_sessionsRevoked (V := fun x => x∈activeIds w₄ user.row.id)
    (fun s => s.userId==user.row.id) hguarded₅ (fun _ hx => hx.elim) fun s hs hnone hq => ?_).bind
    (fun _ w₆ h₆ => ?_) fun e w₆ h₆ => absurd h₆.1 (by rintro ⟨⟩)
  · rw [hsessions₅] at hs
    exact mem_activeIds.mpr ⟨s,hs,beq_iff_eq.mp hq,hnone,rfl⟩
  refine (yields_markers (activeIds w₄ user.row.id) h₆.2).bind (fun _ w₇ h₇ => ?_)
    fun e w₇ h₇ => absurd h₇.1 (by rintro ⟨⟩)
  have hsafe₇ : Safe d R w₇ := h₇.2.mono fun x hx => hx.2 hx.1
  refine safe_bind (inside_clearFailures d _ _) (by decide) hsafe₇ (fun _ w₈ h₈ => ?_)
    fun e w₈ h₈ => h₈.toSecured
  refine safe_bind (inside_clearFailures d _ _) (by decide) h₈ (fun _ w₉ h₉ => ?_)
    fun e w₉ h₉ => h₉.toSecured
  refine safe_bind (inside_logEvent _ _ _ _ _ _ _ _) (by decide) h₉ (fun _ w₁₀ h₁₀ => ?_)
    fun e w₁₀ h₁₀ => h₁₀.toSecured
  exact (yields_safe inside_commit (by decide) h₁₀).mono fun _ _ h₁₁ => h₁₁.toSecured

/-- How a reset ends. -/
theorem yields_reset (email code newPassword : String) (h : Safe d R w) :
    Yields (PasswordResetService.resetPassword d email code newPassword ip ua) w fun _ w' =>
      Secured d R w' := by
  have hrefuse : ∀ user w',Safe d R w' → Yields (PasswordResetService.refuseCode d
      (d.lower email++":"++orUnknown ip) (d.lower email) user) w' fun _ w'' => Secured d R w'' :=
    fun user w' hg => (yields_safe (inside_refuseCode d _ _ user) (by decide) hg).mono
      fun _ _ hg' => hg'.toSecured
  refine safe_bind (inside_assertNotLocked d _ _) (by decide) h (fun _ w₁ h₁ => ?_)
    fun e w₁ h₁ => h₁.toSecured
  refine safe_bind (inside_assertNotLocked d _ _) (by decide) h₁ (fun _ w₂ h₂ => ?_)
    fun e w₂ h₂ => h₂.toSecured
  refine safe_bind (inside_load _) (by decide) h₂ (fun found w₃ h₃ => ?_)
    fun e w₃ h₃ => h₃.toSecured
  cases found with
  | none => exact hrefuse none w₃ h₃
  | some user =>
    simp only [Program.monad_throw,Program.monad_bind]
    split
    · exact h₃.toSecured
    · refine safe_bind (inside_getActiveForUserByHash _ _) (by decide) h₃ (fun found w₄ h₄ => ?_)
        fun e w₄ h₄ => h₄.toSecured
      cases found with
      | none => exact hrefuse _ w₄ h₄
      | some record =>
        dsimp only
        split
        · exact hrefuse _ w₄ h₄
        · refine safe_bind inside_utcNow (by decide) h₄ (fun now w₅ h₅ => ?_)
            fun e w₅ h₅ => h₅.toSecured
          split
          · exact hrefuse _ w₅ h₅
          · exact yields_passwordChange user record _ newPassword _ _ h₅

end Closings

section Requests

variable {d : Deployment} {R R' : UUID → UUID → Prop} {U : UUID → Prop} {s : ServerState}

/-- Sign-ins keep the watch. -/
theorem safe_signIn : KeptUnsigned d (Safe d R) :=
  ⟨fun _ _ hop h => guarded_perform hop (fun _ _ => id) h,
    fun userId _ _ _ h => yields_firstTokens userId h⟩

/-- Every input keeps the watch. -/
theorem secured_next (input : Input) (hlifetimes : Lifetimes d s.env)
    (h : Watch d R (fun _ => False) s.env s.db) :
    Lifetimes d (s.next d input).env ∧
      Watch d R (fun _ => False) (s.next d input).env (s.next d input).db := by
  cases input with
  | setActive userId active =>
    have htokens : tokensOf (ServerState.switched s.db userId active)=tokensOf s.db :=
      Function.update_of_ne (show Table.refreshTokens≠.users by decide) _ _
    have hsessions : sessionsOf (ServerState.switched s.db userId active)=sessionsOf s.db :=
      Function.update_of_ne (show Table.userSessions≠.users by decide) _ _
    exact ⟨hlifetimes,h.calm (Calm.refl _) htokens hsessions⟩
  | elapse delay =>
    have hc : Calm s.env (s.env.tick delay) :=
      ⟨fun _ => rfl,rfl,Nat.le_refl _,Nat.le_add_right _ _⟩
    exact ⟨hlifetimes.calm hc,h.calm hc rfl rfl⟩
  | call client choices =>
    have hsafe : Safe d R (s.world choices) := ⟨⟨h,hlifetimes⟩,h⟩
    have hends : Yields (respond d client) (s.world choices) fun _ w' => Secured d R w' := by
      have hother : ∀ fp,footprint client.request=fp → (∀ a∈fp,Unsigned a) →
          Yields (respond d client) (s.world choices) fun _ w' => Secured d R w' :=
        fun fp hfp ho => (yields_safe (hfp ▸ inside_respond d client) ho hsafe).mono
          fun _ _ h' => h'.toSecured
      obtain ⟨request,ip,ua⟩ := client
      cases request with
      | register email password => exact hother registration rfl (by decide)
      | login email password =>
        exact (safe_signIn.login email password hsafe).bind (fun _ _ h' => h'.toSecured)
          fun _ _ h' => h'.toSecured
      | verifyLoginChallenge challengeId totp backup =>
        exact (safe_signIn.verifyLoginChallenge challengeId totp backup hsafe).bind
          (fun _ _ h' => h'.toSecured) fun _ _ h' => h'.toSecured
      | refreshTokens token =>
        exact (yields_refresh token hsafe rfl).bind (fun _ _ h' => h'.1) fun _ _ h' => h'.1
      | revokeRefreshToken token revokeFamily =>
        exact (yields_signOut token revokeFamily hsafe).bind (fun _ _ h' => h') fun _ _ h' => h'
      | requestReset email => exact hother resetRequest rfl (by decide)
      | resetPassword email code newPassword =>
        exact (yields_reset email code newPassword hsafe).bind (fun _ _ h' => h') fun _ _ h' => h'
      | currentSession authorization => exact hother authentication rfl (by decide)
      | _ => exact hother factorEndpoint rfl (by decide)
    exact ⟨hends.lifetimes,hends.committed⟩

/-- The sessions that were revoked in some state of a run, with their families. -/
def Known (trace : Trace) (s : ServerState) (id familyId : UUID) : Prop :=
  ∃ r,(r=s ∨ ∃ input,(r,input)∈trace) ∧ ∃ session∈sessionsOf r.db,session.id=id ∧
    session.refreshFamilyId=familyId ∧ session.revokedAt≠none

/-- Sessions that are revoked in the database may be added to the known ones. -/
theorem Watch.learn {env : Environment} {db : Database authSchema} (h : Watch d R U env db)
    (hR : ∀ id familyId,R' id familyId → R id familyId ∨ ∃ session∈sessionsOf db,
      session.id=id ∧ session.refreshFamilyId=familyId ∧ session.revokedAt≠none) :
    Watch d R' U env db := by
  refine ⟨h.ids,h.families,h.drawn,h.owners,fun id familyId hr => ?_,h.covered⟩
  rcases hR id familyId hr with hold|hnew
  · exact h.revoked id familyId hold
  · exact hnew

/-- Revoked sessions are watched in every run. -/
theorem watch_runs {clock : Instant} {draws : ℕ} {trace : Trace}
    (h : Runs d (fun _ _ _ => True) (freshServer clock draws) trace s) :
    Lifetimes d s.env ∧ Watch d (Known trace s) (fun _ => False) s.env s.db := by
  refine h.invariant
    (fun trace s => Lifetimes d s.env ∧ Watch d (Known trace s) (fun _ => False) s.env s.db) ?_ ?_
  · refine ⟨fun _ hp => absurd hp List.not_mem_nil,?_⟩
    have hnone : ∀ a,a∉sessionsOf (freshServer clock draws).db := fun _ => List.not_mem_nil
    refine ⟨fun a ha => absurd ha (hnone a),fun a ha => absurd ha (hnone a),
      fun a ha => absurd ha (hnone a),fun _ hr => absurd hr List.not_mem_nil,?_,
      fun a ha => absurd ha (hnone a)⟩
    rintro id familyId ⟨r,rfl|⟨input,hmem⟩,session,hs,_⟩
    · exact absurd hs (hnone session)
    · cases hmem
  · rintro trace s input ⟨hlifetimes,hwatch⟩ _
    obtain ⟨hlifetimes',hwatch'⟩ := secured_next input hlifetimes hwatch
    refine ⟨hlifetimes',hwatch'.learn ?_⟩
    rintro id familyId ⟨r,rfl|⟨other,hmem⟩,hsession⟩
    · exact .inr hsession
    · rcases List.mem_cons.mp hmem with heq|hold
      · obtain ⟨rfl,rfl⟩ := Prod.mk.inj heq
        exact .inl ⟨r,.inl rfl,hsession⟩
      · exact .inl ⟨r,.inr ⟨other,hold⟩,hsession⟩

end Requests

section Theorem

variable {d : Deployment} {R : UUID → UUID → Prop} {s : ServerState}

/-- The family of an inactive session is not refreshed. -/
theorem Watch.not_refreshable (hlifetimes : Lifetimes d s.env)
    (h : Watch d R (fun _ => False) s.env s.db) {session : UserSession}
    (hsession : session∈sessionsOf s.db) (hrevoked : session.revokedAt≠none) :
    ¬Refreshable d s session.refreshFamilyId := by
  rintro ⟨record,hrecord,hfamily,token,ip,ua,choices,response,hhash,hok⟩
  have hsafe : Safe d R (s.world choices) := ⟨⟨h,hlifetimes⟩,h⟩
  have hend : Yields (respond d ⟨.refreshTokens token,ip,ua⟩) (s.world choices) fun o _ =>
      ∀ response,o=.ok response → ∃ row∈tokensOf s.db,row.tokenHash=hashRefreshToken d token ∧
        ∃ active∈sessionsOf s.db,active.refreshFamilyId=row.familyId ∧ active.revokedAt=none :=
    (yields_refresh token hsafe rfl).bind (fun pair _ h' _ _ => h'.2 pair rfl) fun _ _ _ => by
      rintro _ ⟨⟩
  obtain ⟨row,hrow,hrowHash,active,hactive,haf,hnone⟩ := hend response hok
  have hsame : row.familyId=record.familyId :=
    h.family_unique hrow hrecord (hrowHash.trans hhash.symm)
  obtain rfl : active=session :=
    h.families active hactive session hsession (haf.trans (hsame.trans hfamily))
  exact hrevoked hnone

/-- The token expires between its decoding and the look-up of the marker. -/
def Straddles (s : ServerState) (choices : List ℕ) (payload : TokenPayload) : Prop :=
  s.env.clock+choices.headD 0<seconds payload.exp ∧
    seconds payload.exp ≤ s.env.clock+choices.headD 0+choices.tail.headD 0

/-- A decoded access token has not expired. -/
theorem yields_accessClaims (payload : TokenPayload) (encoding : ℕ) (w : World) :
    Yields (decodeAndValidate d (.signed payload encoding) .access) w fun o w' =>
      w'.env=w.env.tick (w.choices.headD 0) ∧ w'.choices=w.choices.tail ∧
        ∀ claims,o=.ok claims → claims.sessionId=payload.sid ∧
          w.env.clock+w.choices.headD 0<seconds payload.exp := by
  unfold Yields Program.Ensures
  rw [run_decodeAndValidate]
  cases hrefusal : refusal d payload .access (w.env.clock+w.choices.headD 0) with
  | some failure => exact ⟨rfl,rfl,by rintro _ ⟨⟩⟩
  | none =>
    refine ⟨rfl,rfl,fun claims hclaims => ?_⟩
    obtain rfl := Except.ok.inj hclaims
    exact ⟨rfl,unexpired_of_refusal hrefusal⟩

/-- A request whose session has a marker is rejected. -/
theorem yields_marked_session (sessionId : UUID) (w : World)
    (h : w.env.redis.lookup (w.env.clock+w.choices.headD 0) (marker sessionId.str)≠none) :
    Yields (ensureAccessSessionActive sessionId) w fun o _ => ∃ e,o=.error e := by
  have hpresent : (w.env.redis.lookup (w.env.clock+w.choices.headD 0)
      (marker sessionId.str)).isSome=true := Option.isSome_iff_ne_none.mpr h
  have hexists : Yields (redisExists (marker sessionId.str)) w fun o _ => o=.ok true :=
    congrArg Except.ok hpresent
  refine hexists.bind (fun found w₁ h₁ => ?_) fun e w₁ h₁ => absurd h₁ (by rintro ⟨⟩)
  obtain rfl := Except.ok.inj h₁
  exact ⟨_,rfl⟩

/-- A token whose marker outlives it is rejected. -/
theorem yields_rejected {session : UserSession} {payload : TokenPayload} (encoding : ℕ)
    {choices : List ℕ} (hsid : payload.sid=some session.id.str)
    (hcovered : Covered s.env session.id payload) (hintime : ¬Straddles s choices payload) :
    Yields (getCurrentUser d (.bearer (.signed payload encoding))) (s.world choices)
      fun o _ => ∀ user,o≠.ok user := by
  refine (yields_accessClaims payload encoding (s.world choices)).bind (fun claims w₁ h₁ => ?_)
    fun e _ _ => by rintro _ ⟨⟩
  obtain ⟨henv,hchoices,hclaims⟩ := h₁
  obtain ⟨hsession,hvalid⟩ := hclaims claims rfl
  have hparse : claims.sessionId.bind UUID.parse=some session.id := by
    rw [hsession,hsid,Option.bind_some,UUID.parse_str]
  rw [hparse]
  cases UUID.parse claims.sub with
  | none => rintro _ ⟨⟩
  | some userId =>
    refine (yields_marked_session session.id w₁ ?_).bind
      (fun _ w₂ h₂ => absurd h₂ (by rintro ⟨_,⟨⟩⟩)) fun e w₂ _ => by rintro _ ⟨⟩
    obtain ⟨entry,hentry,hlast⟩ := hcovered
    have hearly : s.env.clock+choices.headD 0+choices.tail.headD 0<seconds payload.exp := by
      by_contra hlate
      exact hintime ⟨hvalid,Nat.le_of_not_lt hlate⟩
    have hlive : entry.live (w₁.env.clock+w₁.choices.headD 0)=true := by
      rw [henv,hchoices]
      unfold Entry.live
      cases hexpiry : entry.expiresAt with
      | none => rfl
      | some e => exact decide_eq_true (hearly.trans_le (hlast e hexpiry))
    have hlookup : w₁.env.redis.lookup (w₁.env.clock+w₁.choices.headD 0)
        (marker session.id.str)=some entry.value := by
      refine Store.lookup_eq_some.mpr ⟨entry,?_,hlive,rfl⟩
      rw [henv]
      exact hentry
    rw [hlookup]
    exact Option.some_ne_none _

/-- Revocation is final: once a session was revoked, its family is never
refreshed again, and a protected request with an access token of the session is
rejected unless the token expires before its marker is looked up. -/
theorem revocation_is_final {clock : Instant} {draws : ℕ} {trace : Trace}
    (h : Runs d (fun _ _ _ => True) (freshServer clock draws) trace s) {r : ServerState}
    (hr : r=s ∨ ∃ input,(r,input)∈trace) {session : UserSession}
    (hstored : session∈r.db .userSessions) (hrevoked : session.revokedAt≠none) :
    ¬Refreshable d s session.refreshFamilyId ∧
      ∀ payload∈s.env.issued,payload.type=.access → payload.sid=some session.id.str →
        ∀ encoding choices,¬Straddles s choices payload → ∀ user,
          ((getCurrentUser d (.bearer (.signed payload encoding))).run World.perform
            (s.world choices)).1≠.ok user := by
  obtain ⟨hlifetimes,hwatch⟩ := watch_runs h
  obtain ⟨now,hnow,hid,hfamily,hstill⟩ :=
    hwatch.revoked session.id session.refreshFamilyId ⟨r,hr,session,hstored,rfl,rfl,hrevoked⟩
  refine ⟨?_,fun payload hp htype hsid encoding choices hintime => ?_⟩
  · rw [←hfamily]
    exact hwatch.not_refreshable hlifetimes hnow hstill
  · rw [←hid] at hsid
    exact yields_rejected encoding hsid (hwatch.covered now hnow hstill id payload hp htype hsid)
      hintime

end Theorem

section Samples

/-- An account is created, signs in and signs out. -/
def sampleLogout : List Input :=
  [.call (fromClient (.register "a@b" "password1")) [],
    .call (fromClient (.login "a@b" "password1")) [],
    .call (fromClient (.revokeRefreshToken firstRefreshToken true)) []]

/-- A sign-in and its sign-out: the session stays revoked. -/
theorem revocation_is_final_logout : ∃ trace s,∃ session : UserSession,
    session∈s.db .userSessions ∧ session.revokedAt≠none ∧
    performAll sampleDeployment (fun _ _ _ => true) sampleLogout [] (freshServer (seconds 3000) 10)=
      some (trace,s) ∧
    ¬Refreshable sampleDeployment s session.refreshFamilyId ∧
      ∀ payload∈s.env.issued,payload.type=.access → payload.sid=some session.id.str →
        ∀ encoding choices,¬Straddles s choices payload → ∀ user,
          ((getCurrentUser sampleDeployment (.bearer (.signed payload encoding))).run World.perform
            (s.world choices)).1≠.ok user := by
  have hrun : (performAll sampleDeployment (fun _ _ _ => true) sampleLogout []
      (freshServer (seconds 3000) 10)).any (fun result =>
        (sessionsOf result.2.db).any fun session => session.revokedAt.isSome)=true := by
    decide +kernel
  obtain ⟨⟨trace,s⟩,hperform,hany⟩ := (Option.any_eq_true _ _).mp hrun
  obtain ⟨session,hsession,hrevoked⟩ := List.any_eq_true.mp hany
  have hrevoked' : session.revokedAt≠none := Option.isSome_iff_ne_none.mp hrevoked
  exact ⟨trace,s,session,hsession,hrevoked',hperform,revocation_is_final
    (runs_of_performAll (fun _ _ _ _ => trivial) .refl hperform) (.inl rfl) hsession hrevoked'⟩

/-- Some revoked session has an access token that a slow request still gets
accepted. -/
def admits (d : Deployment) (choices : List ℕ) (s : ServerState) : Bool :=
  (sessionsOf s.db).any fun session => session.revokedAt.isSome &&
    s.env.issued.any fun payload => (decide (payload.type=.access) &&
      decide (payload.sid=some session.id.str)) &&
        ((getCurrentUser d (.bearer (.signed payload 0))).run World.perform
          (s.world choices)).1.toBool

/-- A request that decodes its token a second before the expiry and looks for
the marker a second after it is accepted. -/
theorem slow_request_accepted : ∃ trace s,∃ session : UserSession,
    Runs sampleDeployment (fun _ _ _ => True) (freshServer (seconds 3000) 10) trace s ∧
    session∈s.db .userSessions ∧ session.revokedAt≠none ∧
    ∃ payload∈s.env.issued,payload.type=.access ∧ payload.sid=some session.id.str ∧
      ∃ user,((getCurrentUser sampleDeployment (.bearer (.signed payload 0))).run World.perform
        (s.world [0,seconds 2])).1=.ok user := by
  have hrun : (performAll sampleDeployment (fun _ _ _ => true)
      (sampleLogout++[.elapse (seconds 899)]) [] (freshServer (seconds 3000) 10)).any
        (fun result => admits sampleDeployment [0,seconds 2] result.2)=true := by
    decide +kernel
  obtain ⟨⟨trace,s⟩,hperform,hadmits⟩ := (Option.any_eq_true _ _).mp hrun
  obtain ⟨session,hsession,hq⟩ := List.any_eq_true.mp hadmits
  obtain ⟨hrevoked,hany⟩ := (Bool.and_eq_true _ _).mp hq
  obtain ⟨payload,hpayload,hr⟩ := List.any_eq_true.mp hany
  simp only [Bool.and_eq_true,decide_eq_true_eq] at hr
  obtain ⟨⟨htype,hsid⟩,hok⟩ := hr
  refine ⟨trace,s,session,runs_of_performAll (fun _ _ _ _ => trivial) .refl hperform,hsession,
    Option.isSome_iff_ne_none.mp hrevoked,payload,hpayload,htype,hsid,?_⟩
  cases hresult : ((getCurrentUser sampleDeployment (.bearer (.signed payload 0))).run
      World.perform (s.world [0,seconds 2])).1 with
  | ok user => exact ⟨user,rfl⟩
  | error e =>
    rw [hresult] at hok
    cases hok

end Samples

end BackendPlatform.RevokedSessions
