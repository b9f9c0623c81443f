import BackendPlatform.ReachableStates

/-!
# Markers of revoked sessions

A marker in Redis, the revocation of a session and the revocation of its
tokens are three records of one fact. The ledger says how they agree: every
token belongs to one session, a family has at most one unrevoked token, and a
marked session has no unrevoked token or is revoked itself. Sign-ins,
refreshes and resets keep the ledger; a single-token logout keeps it unless
its token has already been exchanged in a living family.
-/

set_option autoImplicit false

namespace BackendPlatform.SessionMarkers

open ProgramTrees TransactionalTables ExpiringStore
open AuthRecords AuthEffects AuthRepositories AuthServices AuthFlows AuthFootprints
open ServerRuns ReachableStates RefreshTokenService JWTService

section Ledgers

/-- The refresh tokens of a database. -/
abbrev tokensOf (db : Database authSchema) : List RefreshToken := db .refreshTokens

/-- The sessions of a database. -/
abbrev sessionsOf (db : Database authSchema) : List UserSession := db .userSessions

/-- The marker of a session has been set. -/
def Marked (env : Environment) (sessionId : String) : Prop :=
  env.redis (.accessSessionRevoked sessionId)≠none

/-- No session of the family is active, or no token of it is unrevoked. -/
def Dead (db : Database authSchema) (familyId : UUID) : Prop :=
  (∀ s∈sessionsOf db,s.refreshFamilyId=familyId → s.revokedAt≠none) ∨
    ∀ r∈tokensOf db,r.familyId=familyId → r.revokedAt≠none

/-- The row belongs to a token whose claims name the session. -/
def Carries (d : Deployment) (r : RefreshToken) (sessionId : UUID) : Prop :=
  ∃ payload encoding, r.tokenHash=hashRefreshToken d (.signed payload encoding) ∧
    payload.jti=r.jti.str ∧ payload.sid=some sessionId.str

/-- Sessions, tokens, markers and the families closed so far agree. -/
structure Ledger (d : Deployment) (F : UUID → Prop) (env : Environment)
    (db : Database authSchema) : Prop where
  /-- Session ids are unique. -/
  ids : ∀ a∈sessionsOf db,∀ b∈sessionsOf db,a.id=b.id → a=b
  /-- A family belongs to one session. -/
  families : ∀ a∈sessionsOf db,∀ b∈sessionsOf db,a.refreshFamilyId=b.refreshFamilyId → a=b
  /-- Sessions and families have been drawn. -/
  drawn : ∀ a∈sessionsOf db,a.id.int<env.draws ∧ a.refreshFamilyId.int<env.draws
  /-- Token ids are unique. -/
  jtis : ∀ a∈tokensOf db,∀ b∈tokensOf db,a.jti=b.jti → a=b
  /-- A token names the session of its family. -/
  owners : ∀ r∈tokensOf db,∃ s∈sessionsOf db,s.refreshFamilyId=r.familyId ∧ Carries d r s.id
  /-- A family has at most one unrevoked token. -/
  live : ∀ a∈tokensOf db,∀ b∈tokensOf db,a.familyId=b.familyId → a.revokedAt=none →
    b.revokedAt=none → a=b
  /-- The family of a marked session is closed. -/
  marked : ∀ s∈sessionsOf db,Marked env s.id.str → F s.refreshFamilyId
  /-- Closed families are dead. -/
  dead : ∀ familyId, F familyId → Dead db familyId
  /-- Closed families have been drawn. -/
  closed : ∀ familyId, F familyId → familyId.int<env.draws
  /-- Marked sessions have been drawn. -/
  markers : ∀ sessionId, Marked env sessionId → ∃ n<env.draws,sessionId=(UUID.mk n).str

variable {d : Deployment} {F : UUID → Prop} {env env' : Environment}
  {db db' : Database authSchema}

/-- The ledger reads two tables, the draws and the markers. -/
theorem Ledger.congr (h : Ledger d F env db) (hdraws : env.draws ≤ env'.draws)
    (hmarked : ∀ sessionId, Marked env' sessionId → Marked env sessionId)
    (htokens : tokensOf db'=tokensOf db) (hsessions : sessionsOf db'=sessionsOf db) :
    Ledger d F env' db' := by
  have hdead : ∀ familyId, Dead db familyId → Dead db' familyId := by
    intro familyId hd
    unfold Dead at hd ⊢
    rwa [htokens,hsessions]
  constructor
  · rw [hsessions]
    exact h.ids
  · rw [hsessions]
    exact h.families
  · rw [hsessions]
    intro a ha
    have hlt := h.drawn a ha
    exact ⟨by omega,by omega⟩
  · rw [htokens]
    exact h.jtis
  · rw [htokens,hsessions]
    exact h.owners
  · rw [htokens]
    exact h.live
  · rw [hsessions]
    exact fun s hs hm => h.marked s hs (hmarked _ hm)
  · exact fun familyId hf => hdead familyId (h.dead familyId hf)
  · intro familyId hf
    have hlt := h.closed familyId hf
    omega
  · intro sessionId hm
    obtain ⟨n,hn,he⟩ := h.markers sessionId (hmarked sessionId hm)
    exact ⟨n,by omega,he⟩

/-- A token keeps its identity and a revocation stays. -/
structure KeepsToken (f : RefreshToken → RefreshToken) : Prop where
  /-- Same id. -/
  jti : ∀ r, (f r).jti=r.jti
  /-- Same family. -/
  familyId : ∀ r, (f r).familyId=r.familyId
  /-- Same token. -/
  tokenHash : ∀ r, (f r).tokenHash=r.tokenHash
  /-- Revocations stay. -/
  revoked : ∀ r, r.revokedAt≠none → (f r).revokedAt≠none

/-- A session keeps its identity and a revocation stays. -/
structure KeepsSession (g : UserSession → UserSession) : Prop where
  /-- Same id. -/
  id : ∀ s, (g s).id=s.id
  /-- Same family. -/
  refreshFamilyId : ∀ s, (g s).refreshFamilyId=s.refreshFamilyId
  /-- Revocations stay. -/
  revoked : ∀ s, s.revokedAt≠none → (g s).revokedAt≠none

/-- An unchanged token keeps its identity. -/
theorem keepsToken_id : KeepsToken fun r => r := ⟨fun _ => rfl,fun _ => rfl,fun _ => rfl,fun _ h => h⟩

/-- An unchanged session keeps its identity. -/
theorem keepsSession_id : KeepsSession fun s => s := ⟨fun _ => rfl,fun _ => rfl,fun _ h => h⟩

/-- A kept assignment to some tokens. -/
theorem KeepsToken.some {f : RefreshToken → RefreshToken} (hf : KeepsToken f)
    (q : RefreshToken → Bool) : KeepsToken fun r => if q r then f r else r := by
  constructor
  · intro r
    split
    · exact hf.jti r
    · rfl
  · intro r
    split
    · exact hf.familyId r
    · rfl
  · intro r
    split
    · exact hf.tokenHash r
    · rfl
  · intro r hr
    split
    · exact hf.revoked r hr
    · exact hr

/-- A kept assignment to some sessions. -/
theorem KeepsSession.some {g : UserSession → UserSession} (hg : KeepsSession g)
    (q : UserSession → Bool) : KeepsSession fun s => if q s then g s else s := by
  constructor
  · intro s
    split
    · exact hg.id s
    · rfl
  · intro s
    split
    · exact hg.refreshFamilyId s
    · rfl
  · intro s hs
    split
    · exact hg.revoked s hs
    · exact hs

/-- Revocations keep families dead. -/
theorem Dead.revise {f : RefreshToken → RefreshToken} {g : UserSession → UserSession}
    (hf : KeepsToken f) (hg : KeepsSession g) (htokens : tokensOf db'=(tokensOf db).map f)
    (hsessions : sessionsOf db'=(sessionsOf db).map g) {familyId : UUID} (h : Dead db familyId) :
    Dead db' familyId := by
  rcases h with h | h
  · refine .inl ?_
    rw [hsessions]
    intro s hs hfam
    obtain ⟨a,ha,rfl⟩ := List.mem_map.mp hs
    exact hg.revoked a (h a ha ((hg.refreshFamilyId a).symm.trans hfam))
  · refine .inr ?_
    rw [htokens]
    intro r hr hfam
    obtain ⟨a,ha,rfl⟩ := List.mem_map.mp hr
    exact hf.revoked a (h a ha ((hf.familyId a).symm.trans hfam))

/-- Revocations of tokens and sessions keep the ledger. -/
theorem Ledger.revise (h : Ledger d F env db) {f : RefreshToken → RefreshToken}
    {g : UserSession → UserSession} (hf : KeepsToken f) (hg : KeepsSession g)
    (htokens : tokensOf db'=(tokensOf db).map f)
    (hsessions : sessionsOf db'=(sessionsOf db).map g) : Ledger d F env db' := by
  have hlive : ∀ r, (f r).revokedAt=none → r.revokedAt=none := by
    intro r hr
    by_contra hne
    exact hf.revoked r hne hr
  constructor
  · rw [hsessions]
    intro a ha b hb hab
    obtain ⟨x,hx,rfl⟩ := List.mem_map.mp ha
    obtain ⟨y,hy,rfl⟩ := List.mem_map.mp hb
    rw [hg.id,hg.id] at hab
    rw [h.ids x hx y hy hab]
  · rw [hsessions]
    intro a ha b hb hab
    obtain ⟨x,hx,rfl⟩ := List.mem_map.mp ha
    obtain ⟨y,hy,rfl⟩ := List.mem_map.mp hb
    rw [hg.refreshFamilyId,hg.refreshFamilyId] at hab
    rw [h.families x hx y hy hab]
  · rw [hsessions]
    intro a ha
    obtain ⟨x,hx,rfl⟩ := List.mem_map.mp ha
    rw [hg.id,hg.refreshFamilyId]
    exact h.drawn x hx
  · rw [htokens]
    intro a ha b hb hab
    obtain ⟨x,hx,rfl⟩ := List.mem_map.mp ha
    obtain ⟨y,hy,rfl⟩ := List.mem_map.mp hb
    rw [hf.jti,hf.jti] at hab
    rw [h.jtis x hx y hy hab]
  · rw [htokens,hsessions]
    intro r hr
    obtain ⟨x,hx,rfl⟩ := List.mem_map.mp hr
    obtain ⟨s,hs,hfam,payload,encoding,hhash,hjti,hsid⟩ := h.owners x hx
    refine ⟨g s,List.mem_map.mpr ⟨s,hs,rfl⟩,?_,payload,encoding,?_,?_,?_⟩
    · rw [hg.refreshFamilyId,hf.familyId,hfam]
    · rw [hf.tokenHash,hhash]
    · rw [hf.jti,hjti]
    · rw [hg.id,hsid]
  · rw [htokens]
    intro a ha b hb hab hla hlb
    obtain ⟨x,hx,rfl⟩ := List.mem_map.mp ha
    obtain ⟨y,hy,rfl⟩ := List.mem_map.mp hb
    rw [hf.familyId,hf.familyId] at hab
    rw [h.live x hx y hy hab (hlive x hla) (hlive y hlb)]
  · intro s hs hm
    rw [hsessions] at hs
    obtain ⟨x,hx,rfl⟩ := List.mem_map.mp hs
    rw [hg.id] at hm
    rw [hg.refreshFamilyId]
    exact h.marked x hx hm
  · exact fun familyId hclosed => (h.dead familyId hclosed).revise hf hg htokens hsessions
  · exact h.closed
  · exact h.markers

/-- A new session with a new family. -/
theorem Ledger.addSession (h : Ledger d F env db) {row : UserSession}
    (hid : ∀ a∈sessionsOf db,a.id≠row.id)
    (hfamily : ∀ a∈sessionsOf db,a.refreshFamilyId≠row.refreshFamilyId)
    (hdrawn : row.id.int<env.draws ∧ row.refreshFamilyId.int<env.draws)
    (hmarked : ¬Marked env row.id.str) (hopen : ¬F row.refreshFamilyId)
    (htokens : tokensOf db'=tokensOf db) (hsessions : sessionsOf db'=sessionsOf db++[row]) : Ledger d F env db' := by
  have hcases : ∀ a∈sessionsOf db',a∈sessionsOf db ∨ a=row := by
    intro a ha
    rw [hsessions] at ha
    rcases List.mem_append.mp ha with hold | hnew
    · exact .inl hold
    · exact .inr (List.mem_singleton.mp hnew)
  have hdead : ∀ familyId, F familyId → Dead db' familyId := by
    intro familyId hf
    rcases h.dead familyId hf with hd | hd
    · refine .inl fun s hs hfam => ?_
      rcases hcases s hs with hold | rfl
      · exact hd s hold hfam
      · exact absurd (hfam ▸ hf) hopen
    · refine .inr ?_
      rwa [htokens]
  constructor
  · intro a ha b hb hab
    rcases hcases a ha with ha | rfl <;> rcases hcases b hb with hb | rfl
    · exact h.ids a ha b hb hab
    · exact absurd hab (hid a ha)
    · exact absurd hab.symm (hid b hb)
    · rfl
  · intro a ha b hb hab
    rcases hcases a ha with ha | rfl <;> rcases hcases b hb with hb | rfl
    · exact h.families a ha b hb hab
    · exact absurd hab (hfamily a ha)
    · exact absurd hab.symm (hfamily b hb)
    · rfl
  · intro a ha
    rcases hcases a ha with ha | rfl
    · exact h.drawn a ha
    · exact hdrawn
  · rw [htokens]
    exact h.jtis
  · rw [htokens,hsessions]
    intro r hr
    obtain ⟨s,hs,hrest⟩ := h.owners r hr
    exact ⟨s,List.mem_append_left _ hs,hrest⟩
  · rw [htokens]
    exact h.live
  · intro s hs hm
    rcases hcases s hs with hold | rfl
    · exact h.marked s hold hm
    · exact absurd hm hmarked
  · exact hdead
  · exact h.closed
  · exact h.markers

/-- A new token of an open family without another unrevoked one. -/
theorem Ledger.addToken (h : Ledger d F env db) {row : RefreshToken} {session : UserSession}
    (hjti : ∀ a∈tokensOf db,a.jti≠row.jti) (hsession : session∈sessionsOf db)
    (hfamily : session.refreshFamilyId=row.familyId) (hcarries : Carries d row session.id)
    (hlive : ∀ a∈tokensOf db,a.familyId=row.familyId → a.revokedAt≠none)
    (hopen : ¬F row.familyId) (htokens : tokensOf db'=tokensOf db++[row])
    (hsessions : sessionsOf db'=sessionsOf db) : Ledger d F env db' := by
  have hcases : ∀ a∈tokensOf db',a∈tokensOf db ∨ a=row := by
    intro a ha
    rw [htokens] at ha
    rcases List.mem_append.mp ha with hold | hnew
    · exact .inl hold
    · exact .inr (List.mem_singleton.mp hnew)
  constructor
  · rw [hsessions]
    exact h.ids
  · rw [hsessions]
    exact h.families
  · rw [hsessions]
    exact h.drawn
  · intro a ha b hb hab
    rcases hcases a ha with ha | rfl <;> rcases hcases b hb with hb | rfl
    · exact h.jtis a ha b hb hab
    · exact absurd hab (hjti a ha)
    · exact absurd hab.symm (hjti b hb)
    · rfl
  · rw [hsessions]
    intro r hr
    rcases hcases r hr with hold | rfl
    · exact h.owners r hold
    · exact ⟨session,hsession,hfamily,hcarries⟩
  · intro a ha b hb hab hla hlb
    rcases hcases a ha with ha | rfl <;> rcases hcases b hb with hb | rfl
    · exact h.live a ha b hb hab hla hlb
    · exact absurd hla (hlive a ha hab)
    · exact absurd hlb (hlive b hb hab.symm)
    · rfl
  · rw [hsessions]
    exact h.marked
  · intro familyId hf
    rcases h.dead familyId hf with hd | hd
    · refine .inl ?_
      rwa [hsessions]
    · refine .inr fun r hr hfam => ?_
      rcases hcases r hr with hold | rfl
      · exact hd r hold hfam
      · exact absurd (hfam ▸ hf) hopen
  · exact h.closed
  · exact h.markers

/-- Families closed so far, with those of some sessions. -/
def Closing (F : UUID → Prop) (db : Database authSchema) (ids : List UUID) (familyId : UUID) :
    Prop := F familyId ∨ ∃ s∈sessionsOf db,s.id∈ids ∧ s.refreshFamilyId=familyId

/-- Markers for sessions whose families are dead. -/
theorem Ledger.close (h : Ledger d F env db) {ids : List UUID} (hdraws : env.draws ≤ env'.draws)
    (hmarked : ∀ x, Marked env' x → Marked env x ∨ ∃ id∈ids,x=id.str)
    (hdrawn : ∀ id∈ids,id.int<env'.draws)
    (hdead : ∀ s∈sessionsOf db,s.id∈ids → Dead db s.refreshFamilyId) :
    Ledger d (Closing F db ids) env' db := by
  have hlater : ∀ s∈sessionsOf db,s.id.int<env'.draws ∧ s.refreshFamilyId.int<env'.draws := by
    intro s hs
    have hlt := h.drawn s hs
    omega
  refine ⟨h.ids,h.families,hlater,h.jtis,h.owners,h.live,?_,?_,?_,?_⟩
  · intro s hs hm
    rcases hmarked _ hm with hold | ⟨id,hid,he⟩
    · exact .inl (h.marked s hs hold)
    · exact .inr ⟨s,hs,UUID.str_injective he ▸ hid,rfl⟩
  · rintro familyId (hold | ⟨s,hs,hid,rfl⟩)
    · exact h.dead familyId hold
    · exact hdead s hs hid
  · rintro familyId (hold | ⟨s,hs,hid,rfl⟩)
    · have hlt := h.closed familyId hold
      omega
    · exact (hlater s hs).2
  · intro x hm
    rcases hmarked x hm with hold | ⟨id,hid,rfl⟩
    · obtain ⟨n,hn,he⟩ := h.markers x hold
      exact ⟨n,by omega,he⟩
    · exact ⟨id.int,hdrawn id hid,rfl⟩

end Ledgers

section Worlds

variable {α β : Type} {p : Action α} {fp : List Access} {d : Deployment}
  {F : UUID → Prop} {w : World}

/-- The working copy and the committed tables both have a ledger. -/
structure Good (d : Deployment) (F : UUID → Prop) (w : World) : Prop where
  /-- The working copy. -/
  work : Ledger d F w.env w.data.work
  /-- The committed tables. -/
  committed : Ledger d F w.env w.data.committed

/-- An access to neither sessions nor tokens nor markers. -/
abbrev Outside (a : Access) : Prop :=
  a∉[Access.insert .userSessions,.update .userSessions,.delete .userSessions,
    .insert .refreshTokens,.update .refreshTokens,.delete .refreshTokens,.redisWrite .marker]

/-- What other accesses leave alone in the working copy. -/
structure Still (w w' : World) : Prop where
  /-- The tokens. -/
  tokens : tokensOf w'.data.work=tokensOf w.data.work
  /-- The sessions. -/
  sessions : sessionsOf w'.data.work=sessionsOf w.data.work
  /-- The markers. -/
  marked : ∀ sessionId, Marked w'.env sessionId → Marked w.env sessionId
  /-- The draws. -/
  draws : w.env.draws ≤ w'.env.draws
  /-- The clock. -/
  clock : w.env.clock ≤ w'.env.clock

/-- A world without a change has its tokens and sessions still. -/
theorem Still.refl (w : World) : Still w w :=
  ⟨rfl,rfl,fun _ h => h,Nat.le_refl _,Nat.le_refl _⟩

/-- Two steps that leave the tokens and sessions still compose. -/
theorem Still.trans {a b c : World} (h : Still a b) (h' : Still b c) : Still a c :=
  ⟨h'.tokens.trans h.tokens,h'.sessions.trans h.sessions,
    fun x hx => h.marked x (h'.marked x hx),h.draws.trans h'.draws,h.clock.trans h'.clock⟩

/-- An access outside the markers sets none. -/
theorem marked_perform {op : External} (hop : .redisWrite .marker∉accesses (.external op))
    (choice : ℕ) (env : Environment) {sessionId : String}
    (h : Marked (env.perform op choice).2 sessionId) : Marked env sessionId := by
  have hne : ∀ key, .redisWrite .marker∉[Access.redisWrite (area key)] →
      RedisKey.accessSessionRevoked sessionId≠key := by
    intro key hk he
    exact hk (by simp [←he,area])
  cases op with
  | redisSet key value expiry =>
    have hsame := Store.assign_of_ne env.redis value (some (env.clock+choice+seconds expiry))
      (hne key hop)
    exact fun hn => h (hsame.trans hn)
  | redisDelete keys =>
    exact fun hn => h (Store.removeAll_eq_none env.redis keys hn)
  | redisIncr key => exact fun hn => h (((env.tick choice).increment_of_ne (hne key hop)).trans hn)
  | redisExpire key expiry =>
    exact fun hn => h (Store.retime_eq_none env.redis (env.clock+choice) key _ hn)
  | _ => exact h

/-- One access outside keeps the working copy of both tables. -/
theorem still_perform {op : Effect} (hop : ∀ a∈accesses op,Outside a ∧ a≠.rollback) (w : World) :
    Still w (World.perform op w).2 := by
  cases op with
  | external op =>
    have hmarker : .redisWrite .marker∉accesses (.external op) :=
      fun hm => (hop _ hm).1 (by simp)
    exact ⟨rfl,rfl,fun _ hm => marked_perform hmarker _ _ hm,
      Environment.draws_le_perform op _ _,Environment.clock_le_perform op _ _⟩
  | sql stmt =>
    have htable : ∀ t : Table, (t=.refreshTokens ∨ t=.userSessions) →
        (World.perform (.sql stmt) w).2.data.work t=w.data.work t := by
      intro t ht
      refine Transaction.perform_work_of_not_touches w.data fun htouch => ?_
      cases stmt with
      | insert u row =>
        have hu : t=u := htouch
        rcases ht with rfl | rfl <;> exact (hop (.insert u) (by simp [accesses])).1 (by simp [←hu])
      | update u q f =>
        have hu : t=u := htouch
        rcases ht with rfl | rfl <;> exact (hop (.update u) (by simp [accesses])).1 (by simp [←hu])
      | delete u q =>
        have hu : t=u := htouch
        rcases ht with rfl | rfl <;> exact (hop (.delete u) (by simp [accesses])).1 (by simp [←hu])
      | rollback => exact (hop .rollback (by simp [accesses])).2 rfl
      | _ => exact htouch
    exact ⟨htable _ (.inl rfl),htable _ (.inr rfl),fun _ hm => hm,Nat.le_refl _,Nat.le_refl _⟩

/-- A part of a request outside the two tables leaves them still. -/
theorem yields_still (hp : Inside p fp) (hfp : ∀ a∈fp,Outside a ∧ a≠.rollback) (w : World) :
    Yields p w fun _ w' => Still w w' :=
  Program.ensures_within Still Still.refl (by intro _ _ _ h h'; exact h.trans h')
    (fun _ w hop => still_perform (fun a ha => hfp a (hop a ha)) w) hp w

/-- The ledger of a working copy follows it through other accesses. -/
theorem Ledger.still {w' : World} (h : Ledger d F w.env w.data.work) (hs : Still w w') :
    Ledger d F w'.env w'.data.work := h.congr hs.draws hs.marked hs.tokens hs.sessions

/-- One access outside keeps both ledgers. -/
theorem good_perform {op : Effect} (hop : ∀ a∈accesses op,Outside a) (h : Good d F w) :
    Good d F (World.perform op w).2 := by
  by_cases hrollback : ∀ a∈accesses op,a≠.rollback
  · have hs := still_perform (fun a ha => ⟨hop a ha,hrollback a ha⟩) w
    refine ⟨h.work.still hs,?_⟩
    have hcommitted : Ledger d F (World.perform op w).2.env w.data.committed :=
      h.committed.congr hs.draws hs.marked rfl rfl
    cases op with
    | external op => exact hcommitted
    | sql stmt =>
      by_cases hc : stmt=.commit
      · subst hc
        exact h.work
      · have hsame : (World.perform (.sql stmt) w).2.data.committed=w.data.committed :=
          Transaction.perform_committed w.data hc
        rw [hsame]
        exact h.committed
  · have hr : op=.sql .rollback := by
      simp only [not_forall,ne_eq,not_not] at hrollback
      obtain ⟨a,ha,rfl⟩ := hrollback
      cases op with
      | external op => cases op <;> simp [accesses] at ha
      | sql stmt => cases stmt <;> simp_all [accesses]
    subst hr
    exact ⟨h.committed,h.committed⟩

/-- A part outside the two tables keeps the world good, a ROLLBACK included. -/
theorem yields_good (hp : Inside p fp) (hfp : ∀ a∈fp,Outside a) (h : Good d F w) :
    Yields p w fun _ w' => Good d F w' := by
  have hkeep : Yields p w fun _ w' => Good d F w → Good d F w' :=
    Program.ensures_within (fun w w' => Good d F w → Good d F w') (fun _ h => h)
      (by intro _ _ _ h h' hg; exact h' (h hg))
      (fun _ _ hop hg => good_perform (fun a ha => hfp a (hop a ha)) hg) hp w
  exact hkeep h

/-- Without a ROLLBACK it also leaves the tokens and sessions still. -/
theorem yields_kept (hp : Inside p fp) (hfp : ∀ a∈fp,Outside a ∧ a≠.rollback)
    (h : Good d F w) : Yields p w fun _ w' => Good d F w' ∧ Still w w' :=
  (yields_good hp (fun a ha => (hfp a ha).1) h).and (yields_still hp hfp w)

/-- A sequence whose first part keeps the ledgers. -/
theorem good_bind {f : α → Action β} {Q : Except Failure β → World → Prop}
    (hp : Inside p fp) (hfp : ∀ a∈fp,Outside a) (h : Good d F w)
    (hok : ∀ a w', Good d F w' → Yields (f a) w' Q) (herror : ∀ e w', Good d F w' → Q (.error e) w') :
    Yields (p.bind f) w Q :=
  (yields_good hp hfp h).bind (fun a w' hw => hok a w' hw) fun e w' hw => herror e w' hw

/-- An INSERT appends its row, or fails at a constraint and changes nothing. -/
theorem yields_insertRow (t : Table) (row : Row t) (w : World) :
    Yields (insertRow t row) w fun o w' =>
      (o=.ok () ∧ (w.data.work t).any (conflict t row)=false ∧
        w'=World.rewrite w t (w.data.work t++[row])) ∨ (∃ e, o=.error e) ∧ w'=w := by
  unfold Yields Program.Ensures
  cases hvalid : valid t row with
  | false =>
    rw [run_insertRow_invalid hvalid]
    exact .inr ⟨⟨_,rfl⟩,rfl⟩
  | true =>
    cases hconflict : (w.data.work t).any (conflict t row) with
    | false =>
      rw [run_insertRow hvalid hconflict]
      exact .inl ⟨rfl,rfl,rfl⟩
    | true =>
      have hperform : Transaction.perform (.insert t row) w.data=(.duplicateKey,w.data) := by
        simp only [Transaction.perform,Transaction.insertRow]
        rw [if_pos hvalid,if_pos hconflict]
      simp only [insertRow,sql,Program.monad_bind,Program.call_bind,Program.pure_bind,Program.run,
        World.perform,hperform]
      exact .inr ⟨⟨_,rfl⟩,rfl⟩

/-- An update revises the rows its condition picks. -/
theorem yields_updateRows (t : Table) (q : Row t → Bool) (f : Row t → Row t) (w : World) :
    Yields (updateRows t q f) w fun _ w' =>
      w'=World.rewrite w t ((w.data.work t).map fun r => if q r then f r else r) := rfl

/-- An UPDATE rewrites the rows of its condition. -/
theorem yields_flushUpdate (t : Table) (q : Row t → Bool) (f : Row t → Row t) (w : World) :
    Yields (flushUpdate t q f) w fun _ w' =>
      w'=World.rewrite w t ((w.data.work t).map fun r => if q r then f r else r) := by
  refine (yields_updateRows t q f w).bind (fun n w' h => ?_) fun _ _ h => h
  show Yields (if n=1 then _ else _) _ _
  split <;> exact h

/-- Rewriting the sessions leaves the tokens. -/
@[simp] theorem tokensOf_rewrite_userSessions (w : World) (rows : List UserSession) :
    tokensOf (World.rewrite w .userSessions rows).data.work=tokensOf w.data.work :=
  @Transaction.write_work_of_ne authSchema _ w.data .userSessions .refreshTokens rows nofun

/-- Rewriting the sessions sets them. -/
@[simp] theorem sessionsOf_rewrite_userSessions (w : World) (rows : List UserSession) :
    sessionsOf (World.rewrite w .userSessions rows).data.work=rows :=
  Transaction.write_work_self w.data .userSessions rows

/-- Rewriting the tokens sets them. -/
@[simp] theorem tokensOf_rewrite_refreshTokens (w : World) (rows : List RefreshToken) :
    tokensOf (World.rewrite w .refreshTokens rows).data.work=rows :=
  Transaction.write_work_self w.data .refreshTokens rows

/-- Rewriting the tokens leaves the sessions. -/
@[simp] theorem sessionsOf_rewrite_refreshTokens (w : World) (rows : List RefreshToken) :
    sessionsOf (World.rewrite w .refreshTokens rows).data.work=sessionsOf w.data.work :=
  @Transaction.write_work_of_ne authSchema _ w.data .refreshTokens .userSessions rows nofun

end Worlds

section Issues

variable {d : Deployment} {F : UUID → Prop} {w : World} {ip ua : Option String}

/-- A session that may get a token: its family is open and has no unrevoked
token. -/
structure Vacant (F : UUID → Prop) (w : World) (session : UserSession) : Prop where
  /-- It is stored. -/
  stored : session∈sessionsOf w.data.work
  /-- Its family has no unrevoked token. -/
  revoked : ∀ a∈tokensOf w.data.work,a.familyId=session.refreshFamilyId → a.revokedAt≠none
  /-- Its family is open. -/
  isOpen : ¬F session.refreshFamilyId

/-- A vacant session stays vacant where tokens and sessions are still. -/
theorem Vacant.still {session : UserSession} {w' : World} (h : Vacant F w session)
    (hs : Still w w') : Vacant F w' session := by
  refine ⟨?_,?_,h.isOpen⟩
  · rw [hs.sessions]
    exact h.stored
  · rw [hs.tokens]
    exact h.revoked

/-- A drawn identifier, with the world it leaves. -/
theorem yields_uuid4 (h : Good d F w) : Yields uuid4 w fun o w' =>
    o=.ok ⟨w.env.draws⟩ ∧ w'.data=w.data ∧ w'.env.draws=w.env.draws+1 ∧ Still w w' ∧ Good d F w' := by
  have hs : Still w (World.perform (.external .draw) w).2 := still_perform (by decide) w
  exact ⟨rfl,rfl,rfl,hs,good_perform (by decide) h⟩

/-- A new session is vacant. -/
theorem yields_createSession (userId familyId : UUID) (h : Good d F w)
    (hfamily : ∀ a∈sessionsOf w.data.work,a.refreshFamilyId≠familyId)
    (hdrawn : familyId.int<w.env.draws) (hopen : ¬F familyId) :
    Yields (SessionRepository.create userId familyId ip ua) w fun o w' => Good d F w' ∧
      ∀ session, o=.ok session → session.refreshFamilyId=familyId ∧ Vacant F w' session := by
  refine (yields_uuid4 h).bind (fun id w₁ h₁ => ?_) fun e w₁ h₁ => ⟨h₁.2.2.2.2,fun _ => nofun⟩
  obtain ⟨hid,hdata,hdraws,hstill,hgood⟩ := h₁
  obtain rfl : id=⟨w.env.draws⟩ := Except.ok.inj hid
  have hnewId : ∀ a∈sessionsOf w₁.data.work,a.id≠⟨w.env.draws⟩ := by
    intro a ha he
    rw [hdata] at ha
    have hlt := (h.work.drawn a ha).1
    rw [he] at hlt
    exact absurd hlt (Nat.lt_irrefl _)
  have hunmarked : ¬Marked w₁.env (UUID.mk w.env.draws).str := by
    intro hm
    obtain ⟨n,hn,he⟩ := h.work.markers _ (hstill.marked _ hm)
    have hsame : w.env.draws=n := UUID.mk.inj (UUID.str_injective he)
    omega
  refine (yields_insertRow .userSessions _ w₁).bind (fun _ w₂ h₂ => ?_) fun e w₂ h₂ => ?_
  · rcases h₂ with ⟨_,_,rfl⟩ | ⟨⟨e,he⟩,_⟩
    · have hfamily₁ : ∀ a∈sessionsOf w₁.data.work,a.refreshFamilyId≠familyId := by
        rw [hdata]
        exact hfamily
      have hbound : w.env.draws<w₁.env.draws ∧ familyId.int<w₁.env.draws := by omega
      refine ⟨⟨hgood.work.addSession hnewId hfamily₁ hbound hunmarked hopen
        (tokensOf_rewrite_userSessions w₁ _) (sessionsOf_rewrite_userSessions w₁ _),
        hgood.committed⟩,fun session hs => ?_⟩
      obtain rfl := Except.ok.inj hs
      refine ⟨rfl,?_,?_,hopen⟩
      · show _∈sessionsOf (World.rewrite w₁ .userSessions _).data.work
        rw [sessionsOf_rewrite_userSessions]
        exact List.mem_append_right _ (List.mem_singleton_self _)
      · show ∀ a∈tokensOf (World.rewrite w₁ .userSessions _).data.work,_
        rw [tokensOf_rewrite_userSessions]
        intro a ha hfam
        obtain ⟨s,hs,hsf,_⟩ := hgood.work.owners a ha
        exact absurd (hsf.trans hfam) (hfamily₁ s hs)
    · cases he
  · rcases h₂ with ⟨he,_⟩ | ⟨_,rfl⟩
    · cases he
    · exact ⟨hgood,fun _ => nofun⟩

/-- A token for a vacant session keeps the ledgers. -/
theorem yields_createToken {session : UserSession} (h : Good d F w) (hv : Vacant F w session)
    {row : RefreshToken} (hfamily : row.familyId=session.refreshFamilyId)
    (hcarries : Carries d row session.id) :
    Yields (RefreshTokenRepository.create row) w fun _ w' => Good d F w' ∧
      sessionsOf w'.data.work=sessionsOf w.data.work := by
  refine (yields_insertRow .refreshTokens row w).mono fun o w' h' => ?_
  rcases h' with ⟨_,hconflict,rfl⟩ | ⟨_,rfl⟩
  · have hjti : ∀ a∈tokensOf w.data.work,a.jti≠row.jti := by
      intro a ha he
      have hno := List.any_eq_false.mp hconflict a ha
      simp [conflict,he] at hno
    have hlive : ∀ a∈tokensOf w.data.work,a.familyId=row.familyId → a.revokedAt≠none :=
      fun a ha hf => hv.revoked a ha (hf.trans hfamily)
    have hopen : ¬F row.familyId := by
      rw [hfamily]
      exact hv.isOpen
    have hsessions := sessionsOf_rewrite_refreshTokens w (tokensOf w.data.work++[row])
    exact ⟨⟨h.work.addToken hjti hv.stored hfamily.symm hcarries hlive hopen
      (tokensOf_rewrite_refreshTokens w _) hsessions,h.committed⟩,hsessions⟩
  · exact ⟨h,rfl⟩

/-- A signed refresh token names its session. -/
theorem yields_issueRefreshToken (userId sessionId familyId jti : UUID) (h : Good d F w) :
    Yields (issueRefreshToken d userId sessionId familyId jti) w fun o w' =>
      Still w w' ∧ Good d F w' ∧ ∀ r, o=.ok r → ∃ payload, r.1=.signed payload 0 ∧
        payload.jti=jti.str ∧ payload.sid=some sessionId.str := by
  have hfp : ∀ a∈([.clock,.sign] : List Access),Outside a ∧ a≠.rollback := by decide
  have hin : Inside (issueRefreshToken d userId sessionId familyId jti) [.clock,.sign] :=
    inside_issueRefreshToken d userId sessionId familyId jti
  refine (yields_still hin hfp w).and ((yields_good hin (by decide) h).and ?_)
  intro r hr
  cases hr
  exact ⟨_,rfl,rfl,rfl⟩

/-- Tokens for a new session keep the ledgers. -/
theorem yields_issueForUser (userId : UUID) (h : Good d F w) :
    Yields (issueForUser d userId ip ua) w fun _ w' => Good d F w' := by
  refine (yields_uuid4 h).bind (fun familyId w₁ h₁ => ?_) fun e w₁ h₁ => h₁.2.2.2.2
  obtain ⟨hid,hdata,hdraws,_,hgood⟩ := h₁
  obtain rfl : familyId=⟨w.env.draws⟩ := Except.ok.inj hid
  have hfamily : ∀ a∈sessionsOf w₁.data.work,a.refreshFamilyId≠⟨w.env.draws⟩ := by
    intro a ha he
    rw [hdata] at ha
    have hlt := (h.work.drawn a ha).2
    rw [he] at hlt
    exact absurd hlt (Nat.lt_irrefl _)
  have hdrawn : w.env.draws<w₁.env.draws := by omega
  have hopen : ¬F ⟨w.env.draws⟩ := fun hf => Nat.lt_irrefl _ (h.work.closed _ hf)
  refine (yields_createSession userId _ hgood hfamily hdrawn hopen).bind (fun session w₂ h₂ => ?_)
    fun e w₂ h₂ => h₂.1
  obtain ⟨hgood₂,hsession⟩ := h₂
  obtain ⟨hsf,hvacant⟩ := hsession session rfl
  refine (yields_uuid4 hgood₂).bind (fun jti w₃ h₃ => ?_) fun e w₃ h₃ => h₃.2.2.2.2
  obtain ⟨_,_,_,hstill₃,hgood₃⟩ := h₃
  refine (yields_issueRefreshToken userId session.id _ jti hgood₃).bind (fun r w₄ h₄ => ?_)
    fun e w₄ h₄ => h₄.2.1
  obtain ⟨hstill₄,hgood₄,hr⟩ := h₄
  obtain ⟨payload,hpayload,hjti,hsid⟩ := hr r rfl
  have hvacant₄ : Vacant F w₄ session := hvacant.still (hstill₃.trans hstill₄)
  refine (yields_createToken hgood₄ hvacant₄ hsf.symm ⟨payload,0,?_,hjti,hsid⟩).bind
    (fun _ w₅ h₅ => ?_) fun _ _ h₅ => h₅.1
  · rw [←hpayload]
  · exact good_bind (inside_issueAccessToken d userId session.id) (by decide) h₅.1
      (fun _ _ h => h) fun _ _ h => h

end Issues

section Revocations

variable {d : Deployment} {F : UUID → Prop} {w : World} {ip ua : Option String}

/-- The refresh token names the session and has not expired. -/
def Names (token : RawToken) (sessionId : UUID) (now : Instant) : Prop :=
  ∃ payload encoding sid, token=.signed payload encoding ∧ payload.sid=some sid ∧
    UUID.parse sid=some sessionId ∧ now<seconds payload.exp

/-- A refresh token names one session. -/
theorem Names.unique {token : RawToken} {a b : UUID} {now now' : Instant}
    (ha : Names token a now) (hb : Names token b now') : a=b := by
  obtain ⟨payload,encoding,sid,rfl,hsid,hparse,_⟩ := ha
  obtain ⟨payload',encoding',sid',htoken,hsid',hparse',_⟩ := hb
  obtain ⟨rfl,_⟩ := RawToken.signed.inj htoken
  obtain rfl := Option.some.inj (hsid.symm.trans hsid')
  exact Option.some.inj (hparse.symm.trans hparse')

/-- The session a stored token names is the session of its family. -/
theorem Ledger.owner {env : Environment} {db : Database authSchema} (h : Ledger d F env db)
    {record : RefreshToken} (hrecord : record∈tokensOf db) {token : RawToken} {sessionId : UUID}
    {now : Instant} (hhash : record.tokenHash=hashRefreshToken d token)
    (hnames : Names token sessionId now) :
    ∃ s∈sessionsOf db,s.refreshFamilyId=record.familyId ∧ s.id=sessionId := by
  obtain ⟨s,hs,hfam,payload,encoding,hrow,_,hsid⟩ := h.owners record hrecord
  obtain ⟨payload',encoding',sid,rfl,hsid',hparse,_⟩ := hnames
  have htoken : RawToken.signed payload encoding=.signed payload' encoding' :=
    congrArg Hmac.message (hrow.symm.trans hhash)
  obtain ⟨rfl,_⟩ := RawToken.signed.inj htoken
  obtain rfl : s.id.str=sid := Option.some.inj (hsid.symm.trans hsid')
  rw [UUID.parse_str] at hparse
  exact ⟨s,hs,hfam,Option.some.inj hparse⟩

/-- The checks of a signed token, run on a world, are the checks at the time of
its clock. -/
theorem run_decodeAndValidate (payload : TokenPayload) (encoding : ℕ) (kind : TokenType) (w : World) :
    Program.run World.perform (decodeAndValidate d (.signed payload encoding) kind) w=
      (match refusal d payload kind (w.env.clock+w.choices.headD 0) with
      | some failure => (throw failure : Action TokenClaims)
      | none => return ⟨payload.sub,payload.jti,payload.type,payload.sid,payload.familyId⟩).run
        World.perform (World.perform (.external .now) w).2 := rfl

/-- An accepted payload has not expired. -/
theorem unexpired_of_refusal {payload : TokenPayload} {kind : TokenType} {now : Instant}
    (h : refusal d payload kind now=none) : now<seconds payload.exp := by
  have hholds : claimsHold d payload now=true := by
    by_contra hno
    rw [refusal,if_pos (by simpa using hno)] at h
    cases h
  simp only [claimsHold,Bool.and_eq_true,decide_eq_true_eq] at hholds
  exact hholds.1.1.2

/-- Only signed, unexpired tokens pass. -/
theorem yields_decodeAndValidate (token : RawToken) (w : World) :
    Yields (decodeAndValidate d token .refresh) w fun o w' => w'.data=w.data ∧ Still w w' ∧
      ∀ claims, o=.ok claims → ∃ payload encoding, token=.signed payload encoding ∧
        claims.jti=payload.jti ∧ claims.sessionId=payload.sid ∧
        w.env.clock<seconds payload.exp := by
  have hin := inside_decodeAndValidate d token .refresh
  refine (yields_data hin (by decide) w).and ((yields_still hin (by decide) w).and ?_)
  cases token with
  | garbage text => rintro _ ⟨⟩
  | signed payload encoding =>
    intro claims hclaims
    refine ⟨payload,encoding,rfl,?_⟩
    rw [run_decodeAndValidate] at hclaims
    cases hrefusal : refusal d payload .refresh (w.env.clock+w.choices.headD 0) with
    | some failure =>
      rw [hrefusal] at hclaims
      cases hclaims
    | none =>
      rw [hrefusal] at hclaims
      cases hclaims
      refine ⟨rfl,rfl,?_⟩
      exact (Nat.le_add_right _ _).trans_lt (unexpired_of_refusal hrefusal)

/-- The identifiers are those the claims name. -/
theorem yields_refreshIds (claims : TokenClaims) (w : World) :
    Yields (refreshIds claims) w fun o w' => w'=w ∧
      ∀ ids, o=.ok ids → UUID.parse claims.jti=some ids.tokenJti ∧
        ∃ sid, claims.sessionId=some sid ∧ UUID.parse sid=some ids.sessionId := by
  unfold refreshIds
  split
  · rename_i sid fid hsid hfid
    split
    · rename_i ids hids
      refine ⟨rfl,fun ids' he => ?_⟩
      obtain rfl := Except.ok.inj he
      simp only [parseIds,Option.pure_def,Option.bind_eq_bind,Option.bind_eq_some_iff] at hids
      obtain ⟨jti,hjti,_,_,sessionId,hparse,_,_,hsame⟩ := hids
      obtain rfl := Option.some.inj hsame
      exact ⟨hjti,sid,hsid,hparse⟩
    · exact ⟨rfl,fun _ => nofun⟩
  · exact ⟨rfl,fun _ => nofun⟩

/-- Picking a row from a result changes nothing. -/
theorem yields_scalarOneOrNone {α : Type} (rows : List α) (w : World) :
    Yields (scalarOneOrNone rows) w fun o w' => w'=w ∧ (∀ a, o=.ok (some a) → a∈rows) ∧
      (o=.ok none → rows=[]) := by
  match rows with
  | [] => exact ⟨rfl,fun _ => nofun,fun _ => rfl⟩
  | [row] =>
    refine ⟨rfl,fun a ha => ?_,nofun⟩
    obtain rfl := Option.some.inj (Except.ok.inj ha)
    exact List.mem_singleton_self _
  | _::_::_ => exact ⟨rfl,fun _ => nofun,nofun⟩

/-- A fetched token is stored. -/
theorem yields_getByJtiForUpdate (jti : UUID) (w : World) :
    Yields (RefreshTokenRepository.getByJtiForUpdate jti) w fun o w' => w'=w ∧
      (∀ record, o=.ok (some record) → record∈tokensOf w.data.work) ∧
      (o=.ok none → ∀ r∈tokensOf w.data.work,r.jti≠jti) := by
  have hfound := yields_scalarOneOrNone ((w.data.work .refreshTokens).filter
    fun r : RefreshToken => r.jti==jti) w
  refine ⟨hfound.1,fun record he => List.mem_of_mem_filter (hfound.2.1 record he),
    fun he r hr hjti => ?_⟩
  have hnone := List.filter_eq_nil_iff.mp (hfound.2.2 he) r hr
  exact hnone (by simp [hjti])

/-- An active family has an active session. -/
theorem yields_isFamilyActive (familyId : UUID) (w : World) :
    Yields (SessionRepository.isFamilyActive familyId) w fun o w' => w'=w ∧
      ∃ active, o=.ok active ∧ (active=true →
        ∃ s∈sessionsOf w.data.work,s.refreshFamilyId=familyId ∧ s.revokedAt=none) := by
  refine ⟨rfl,_,rfl,fun he => ?_⟩
  have hpos : 0<((w.data.work .userSessions).filter fun s : UserSession =>
      s.refreshFamilyId==familyId && s.revokedAt.isNone).length := of_decide_eq_true he
  obtain ⟨s,hs⟩ := List.exists_mem_of_length_pos hpos
  obtain ⟨hmem,hq⟩ := List.mem_filter.mp hs
  simp only [Bool.and_eq_true,beq_iff_eq,Option.isNone_iff_eq_none] at hq
  exact ⟨s,hmem,hq.1,hq.2⟩

/-- Reading the clock changes no data. -/
theorem yields_utcNow (w : World) : Yields utcNow w fun o w' =>
    (∃ now, o=.ok now) ∧ w'.data=w.data ∧ Still w w' :=
  ⟨⟨_,rfl⟩,rfl,still_perform (by decide) w⟩

/-- What a revocation of tokens and sessions does to a world. -/
structure Revised (f : RefreshToken → RefreshToken) (g : UserSession → UserSession)
    (w w' : World) : Prop where
  /-- Tokens keep their identity. -/
  keepsToken : KeepsToken f
  /-- Sessions keep their identity. -/
  keepsSession : KeepsSession g
  /-- The tokens. -/
  tokens : tokensOf w'.data.work=(tokensOf w.data.work).map f
  /-- The sessions. -/
  sessions : sessionsOf w'.data.work=(sessionsOf w.data.work).map g
  /-- Nothing is committed. -/
  committed : w'.data.committed=w.data.committed
  /-- The markers. -/
  marked : ∀ sessionId, Marked w'.env sessionId → Marked w.env sessionId
  /-- The draws. -/
  draws : w.env.draws ≤ w'.env.draws

/-- A revocation right after the clock was read. -/
theorem Revised.later {w₁ w' : World} {f : RefreshToken → RefreshToken}
    {g : UserSession → UserSession} (hr : Revised f g w₁ w') (hdata : w₁.data=w.data)
    (hs : Still w w₁) : Revised f g w w' :=
  ⟨hr.keepsToken,hr.keepsSession,hdata ▸ hr.tokens,hdata ▸ hr.sessions,hdata ▸ hr.committed,
    fun x hx => hs.marked x (hr.marked x hx),hs.draws.trans hr.draws⟩

/-- A family without unrevoked tokens is dead. -/
theorem Revised.dead {w' : World} {f : RefreshToken → RefreshToken} {g : UserSession → UserSession}
    {familyId : UUID} (hr : Revised f g w w')
    (hrevoked : ∀ r∈tokensOf w.data.work,r.familyId=familyId → (f r).revokedAt≠none) :
    Dead w'.data.work familyId := by
  refine .inr fun r hmem hfam => ?_
  rw [hr.tokens] at hmem
  obtain ⟨a,ha,rfl⟩ := List.mem_map.mp hmem
  exact hrevoked a ha ((hr.keepsToken.familyId a).symm.trans hfam)

/-- Dead families stay dead. -/
theorem Revised.keeps_dead {w' : World} {f : RefreshToken → RefreshToken}
    {g : UserSession → UserSession} {familyId : UUID} (hr : Revised f g w w')
    (h : Dead w.data.work familyId) : Dead w'.data.work familyId :=
  h.revise hr.keepsToken hr.keepsSession hr.tokens hr.sessions

/-- A revocation keeps the ledgers. -/
theorem Good.revised {w' : World} {f : RefreshToken → RefreshToken} {g : UserSession → UserSession}
    (h : Good d F w) (hr : Revised f g w w') : Good d F w' := by
  have hlater := h.committed.congr hr.draws hr.marked rfl rfl
  refine ⟨(h.work.congr hr.draws hr.marked rfl rfl).revise hr.keepsToken hr.keepsSession
    hr.tokens hr.sessions,?_⟩
  rwa [hr.committed]

/-- Tokens that satisfy a condition are revoked. -/
theorem yields_revokeTokensWhere (q : RefreshToken → Bool) (reason : String) (w : World) :
    Yields (RefreshTokenRepository.revokeWhere q reason) w fun o w' => o=.ok () ∧
      ∃ f, Revised f (fun s => s) w w' ∧ ∀ r, q r=true → (f r).revokedAt≠none := by
  have hkeeps : KeepsToken fun r => {r with
      revokedAt := some (w.env.clock+w.choices.headD 0), revocationReason := some reason} :=
    ⟨fun _ => rfl,fun _ => rfl,fun _ => rfl,fun _ _ => nofun⟩
  refine ⟨rfl,_,⟨hkeeps.some fun r => q r && r.revokedAt.isNone,keepsSession_id,tokensOf_rewrite_refreshTokens _ _,?_,rfl,fun _ h => h,
    Nat.le_refl _⟩,fun r hq => ?_⟩
  · rw [List.map_id']
    exact sessionsOf_rewrite_refreshTokens _ _
  · cases hr : r.revokedAt with
    | none => simp [hq]
    | some instant => simp [hr]

/-- Sessions that satisfy a condition are revoked. -/
theorem yields_revokeSessionsWhere (q : UserSession → Bool) (w : World) :
    Yields (SessionRepository.revokeWhere q) w fun o w' => o=.ok () ∧
      ∃ g, Revised (fun r => r) g w w' ∧ ∀ s, q s=true → (g s).revokedAt≠none := by
  have hkeeps : KeepsSession fun s => {s with
      revokedAt := some (w.env.clock+w.choices.headD 0)} :=
    ⟨fun _ => rfl,fun _ => rfl,fun _ _ => nofun⟩
  refine ⟨rfl,_,⟨keepsToken_id,hkeeps.some fun s => q s && s.revokedAt.isNone,?_,sessionsOf_rewrite_userSessions _ _,rfl,fun _ h => h,
    Nat.le_refl _⟩,fun s hq => ?_⟩
  · rw [List.map_id']
    exact tokensOf_rewrite_userSessions _ _
  · cases hs : s.revokedAt with
    | none => simp [hq]
    | some instant => simp [hs]

/-- The revocation of one token. -/
theorem yields_flushToken (q : RefreshToken → Bool) {f : RefreshToken → RefreshToken}
    (hf : KeepsToken f) (w : World) :
    Yields (flushUpdate .refreshTokens q f) w fun _ w' =>
      Revised (fun r => if q r then f r else r) (fun s => s) w w' := by
  refine (yields_flushUpdate .refreshTokens q f w).mono fun _ w' h => ?_
  subst h
  refine ⟨hf.some q,keepsSession_id,tokensOf_rewrite_refreshTokens _ _,?_,rfl,fun _ h => h,
    Nat.le_refl _⟩
  rw [List.map_id']
  exact sessionsOf_rewrite_refreshTokens _ _

/-- A touched session keeps its identity. -/
theorem yields_touchFamily (familyId : UUID) (w : World) :
    Yields (SessionRepository.touchFamily familyId) w fun _ w' =>
      ∃ g, Revised (fun r => r) g w w' := by
  have hkeeps : KeepsSession fun s => {s with
      lastSeenAt := some (w.env.clock+w.choices.headD 0)} :=
    ⟨fun _ => rfl,fun _ => rfl,fun _ h => h⟩
  refine ⟨_,⟨keepsToken_id,
    hkeeps.some fun s => s.refreshFamilyId==familyId && s.revokedAt.isNone,?_,sessionsOf_rewrite_userSessions _ _,rfl,
    fun _ h => h,Nat.le_refl _⟩⟩
  rw [List.map_id']
  exact tokensOf_rewrite_userSessions _ _

end Revocations

section Exchanges

variable {d : Deployment} {F : UUID → Prop} {w : World} {ip ua : Option String}

/-- An exchanged token is revoked. -/
theorem yields_markRotated (record : RefreshToken) (jti : UUID) (w : World) :
    Yields (RefreshTokenRepository.markRotated record jti) w fun _ w' =>
      ∃ f, Revised f (fun s => s) w w' ∧ ∀ r, r.jti=record.jti → (f r).revokedAt≠none := by
  have hkeeps : KeepsToken fun r => {r with
      rotatedAt := some (w.env.clock+w.choices.headD 0)
      revokedAt := some (w.env.clock+w.choices.headD 0)
      revocationReason := some "rotated"
      replacedByJti := some jti} :=
    ⟨fun _ => rfl,fun _ => rfl,fun _ => rfl,fun _ _ => nofun⟩
  have hnow : Yields utcNow w fun o w' => o=.ok (w.env.clock+w.choices.headD 0) ∧
      w'=(World.perform (.external .now) w).2 := ⟨rfl,rfl⟩
  refine hnow.bind (fun now w₁ h₁ => ?_) fun e w₁ h₁ => absurd h₁.1 nofun
  obtain ⟨hinstant,rfl⟩ := h₁
  obtain rfl := Except.ok.inj hinstant
  have hflush := yields_flushToken (fun r => r.jti==record.jti) hkeeps
    (World.perform (.external .now) w).2
  refine hflush.mono fun _ w' hr => ⟨_,hr.later rfl (still_perform (by decide) w),fun r hjti => ?_⟩
  rw [if_pos (by simp [hjti])]
  exact nofun

/-- Once the only unrevoked token of an open family is revoked, its session
may get a new one. -/
theorem Good.vacant {w' : World} {f : RefreshToken → RefreshToken} {record : RefreshToken}
    {session : UserSession} (h : Good d F w) (hr : Revised f (fun s => s) w w')
    (hrevoked : ∀ r, r.jti=record.jti → (f r).revokedAt≠none)
    (hrecord : record∈tokensOf w.data.work) (hsession : session∈sessionsOf w.data.work)
    (hfam : record.familyId=session.refreshFamilyId) (hlive : record.revokedAt=none)
    (hopen : ¬F session.refreshFamilyId) : Vacant F w' session := by
  refine ⟨?_,fun a ha hafam => ?_,hopen⟩
  · rw [hr.sessions,List.map_id']
    exact hsession
  · rw [hr.tokens] at ha
    obtain ⟨b,hb,rfl⟩ := List.mem_map.mp ha
    rw [hr.keepsToken.familyId] at hafam
    by_cases hbl : b.revokedAt=none
    · have hsame : b=record := h.work.live b hb record hrecord (hafam.trans hfam.symm) hbl hlive
      exact hrevoked b (by rw [hsame])
    · exact hr.keepsToken.revoked b hbl

/-- The new token of an exchange goes to a family that the old one has left. -/
theorem yields_exchange {record : RefreshToken} {ids : RefreshIds} {session : UserSession}
    (h : Good d F w) (hrecord : record∈tokensOf w.data.work)
    (hsession : session∈sessionsOf w.data.work) (hfamily : session.refreshFamilyId=ids.familyId)
    (hid : session.id=ids.sessionId) (hfam : record.familyId=ids.familyId)
    (hlive : record.revokedAt=none) (hopen : ¬F ids.familyId) :
    Yields (exchange d record ids ip ua) w fun o w' => Good d F w' ∧
      ∀ pair, o=.ok pair → pair.refreshFamilyId=ids.familyId ∧ ∃ s∈sessionsOf w'.data.work,
        s.refreshFamilyId=ids.familyId ∧ s.id=pair.sessionId := by
  refine (yields_uuid4 h).bind (fun jti w₁ h₁ => ?_) fun e w₁ h₁ => ⟨h₁.2.2.2.2,fun _ => nofun⟩
  obtain ⟨_,_,_,hstill₁,hgood₁⟩ := h₁
  refine (yields_issueRefreshToken ids.userId ids.sessionId ids.familyId jti hgood₁).bind
    (fun r w₂ h₂ => ?_) fun e w₂ h₂ => ⟨h₂.2.1,fun _ => nofun⟩
  obtain ⟨hstill₂,hgood₂,hr⟩ := h₂
  obtain ⟨payload,hpayload,hjti,hsid⟩ := hr r rfl
  have hstill := hstill₁.trans hstill₂
  have hrecord₂ : record∈tokensOf w₂.data.work := hstill.tokens ▸ hrecord
  have hsession₂ : session∈sessionsOf w₂.data.work := hstill.sessions ▸ hsession
  refine (yields_markRotated record jti w₂).bind (fun _ w₃ h₃ => ?_) fun e w₃ h₃ => ?_
  · obtain ⟨f,hrevised,hrevoked⟩ := h₃
    have hgood₃ := hgood₂.revised hrevised
    have hvacant : Vacant F w₃ session := by
      refine hgood₂.vacant hrevised hrevoked hrecord₂ hsession₂ (hfam.trans hfamily.symm) hlive ?_
      rwa [hfamily]
    refine (yields_createToken hgood₃ hvacant hfamily.symm ⟨payload,0,?_,hjti,?_⟩).bind
      (fun _ w₄ h₄ => ?_) fun e w₄ h₄ => ⟨h₄.1,fun _ => nofun⟩
    · rw [←hpayload]
    · rw [hid]
      exact hsid
    · obtain ⟨hgood₄,hsame₄⟩ := h₄
      have hstored₄ : session∈sessionsOf w₄.data.work := hsame₄ ▸ hvacant.stored
      refine (yields_touchFamily ids.familyId w₄).bind (fun _ w₅ h₅ => ?_) fun e w₅ h₅ => ?_
      · obtain ⟨g,htouched⟩ := h₅
        have hsession₅ : g session∈sessionsOf w₅.data.work := by
          rw [htouched.sessions]
          exact List.mem_map.mpr ⟨session,hstored₄,rfl⟩
        have hin := inside_issueAccessToken d ids.userId ids.sessionId
        refine ((yields_good hin (by decide) (hgood₄.revised htouched)).and
          (yields_still hin (by decide) w₅)).bind (fun _ w₆ h₆ => ⟨h₆.1,fun pair hp => ?_⟩)
          fun e w₆ h₆ => ⟨h₆.1,fun _ => nofun⟩
        obtain rfl := Except.ok.inj hp
        have hsession₆ : g session∈sessionsOf w₆.data.work := h₆.2.sessions ▸ hsession₅
        exact ⟨rfl,g session,hsession₆,(htouched.keepsSession.refreshFamilyId session).trans hfamily,
          (htouched.keepsSession.id session).trans hid⟩
      · obtain ⟨g,htouched⟩ := h₅
        exact ⟨hgood₄.revised htouched,fun _ => nofun⟩
  · obtain ⟨f,hrevised,_⟩ := h₃
    exact ⟨hgood₂.revised hrevised,fun _ => nofun⟩

/-- The failure is not the detection of a reused token. -/
abbrev NotReuse (e : Failure) : Prop :=
  ∀ sessionId familyId, e≠.tokenReuseDetected sessionId familyId

/-- A statement of the database failed. -/
abbrev DatabaseFailure (e : Failure) : Prop :=
  e=.integrityError ∨ e=.dataError ∨ e=.staleData

/-- A database failure is no report of a reused token. -/
theorem notReuse_of_databaseFailure {e : Failure} (h : DatabaseFailure e) : NotReuse e := by
  rcases h with rfl | rfl | rfl <;> exact fun _ _ => nofun

/-- An INSERT fails with a database failure only. -/
theorem raises_insertRow (t : Table) (row : Row t) :
    (insertRow t row).Raises DatabaseFailure := by
  simp only [insertRow,sql,Program.monad_bind,Program.call_bind,Program.pure_bind]
  intro r
  cases r with
  | inserted => trivial
  | duplicateKey => exact .inl rfl
  | invalidValue => exact .inr (.inl rfl)

/-- An UPDATE fails with a database failure only. -/
theorem raises_flushUpdate (t : Table) (q : Row t → Bool) (f : Row t → Row t) :
    (flushUpdate t q f).Raises DatabaseFailure := by
  intro n
  show Program.Raises DatabaseFailure (if n=1 then .pure () else .raise .staleData)
  split
  · trivial
  · exact .inr (.inr rfl)

/-- The exchange of a token fails with a database failure only. -/
theorem raises_exchange (record : RefreshToken) (ids : RefreshIds) :
    (exchange d record ids ip ua).Raises DatabaseFailure := by
  have hdraw : uuid4.Raises DatabaseFailure := fun _ => trivial
  have hissue : ∀ jti, (issueRefreshToken d ids.userId ids.sessionId ids.familyId jti).Raises
      DatabaseFailure := fun _ _ _ => trivial
  have hrotated : ∀ jti, (RefreshTokenRepository.markRotated record jti).Raises DatabaseFailure :=
    fun _ _ => raises_flushUpdate _ _ _
  refine Program.raises_bind hdraw fun jti => Program.raises_bind (hissue jti) fun r =>
    Program.raises_bind (hrotated jti) fun _ =>
    Program.raises_bind (raises_insertRow _ _) fun _ => ?_
  exact fun _ _ _ _ _ => trivial

/-- The token checks never report a reused token. -/
theorem raises_decodeAndValidate (token : RawToken) :
    (decodeAndValidate d token .refresh).Raises NotReuse := by
  cases token with
  | garbage text => rintro _ _ ⟨⟩
  | signed payload encoding =>
    unfold decodeAndValidate
    intro now
    dsimp only [Program.pure_bind]
    unfold refusal
    split_ifs <;> first | trivial | rintro _ _ ⟨⟩

/-- Reading the identifiers of the claims never reports a reused token. -/
theorem raises_refreshIds (claims : TokenClaims) : (refreshIds claims).Raises NotReuse := by
  unfold refreshIds
  split
  · split
    · trivial
    · exact fun _ _ => nofun
  · exact fun _ _ => nofun

/-- The look-up of the token never reports a reused one. -/
theorem raises_getByJtiForUpdate (jti : UUID) :
    (RefreshTokenRepository.getByJtiForUpdate jti).Raises NotReuse := by
  intro rows
  match rows with
  | [] => trivial
  | [row] => trivial
  | _::_::_ => exact fun _ _ => nofun

/-- A stored row of a presented token, with the session it belongs to. -/
structure Presented (d : Deployment) (env : Environment) (db : Database authSchema)
    (token : RawToken) (sessionId : UUID) (record : RefreshToken) : Prop where
  /-- The row is stored. -/
  stored : record∈tokensOf db
  /-- It is the row of the token. -/
  tokenHash : record.tokenHash=hashRefreshToken d token
  /-- The token names the session and has not expired. -/
  names : Names token sessionId env.clock

/-- The row of a presented token was looked up. -/
structure LookedUp (d : Deployment) (F : UUID → Prop) (w : World) (token : RawToken)
    (ids : RefreshIds) (found : Option RefreshToken) (w' : World) : Prop where
  /-- The ledgers. -/
  good : Good d F w'
  /-- The database is the same. -/
  data : w'.data=w.data
  /-- The token names the session. -/
  names : Names token ids.sessionId w.env.clock
  /-- A found row is stored. -/
  stored : ∀ record, found=some record → record∈tokensOf w.data.work
  /-- Otherwise no row belongs to the token. -/
  missing : found=none → ∀ sessionId record, ¬Presented d w.env w.data.work token sessionId record

/-- Rotation and revocation begin with the same checks. -/
theorem yields_lookup {α : Type} {k : RefreshIds → Option RefreshToken → Action α}
    {Q : Except Failure α → World → Prop} (token : RawToken) (h : Good d F w)
    (hok : ∀ ids found w', LookedUp d F w token ids found w' → Yields (k ids found) w' Q)
    (herror : ∀ e w', Good d F w' → NotReuse e → Q (.error e) w') :
    Yields ((decodeAndValidate d token .refresh).bind fun claims =>
      (refreshIds claims).bind fun ids =>
        (RefreshTokenRepository.getByJtiForUpdate ids.tokenJti).bind (k ids)) w Q := by
  have hin := inside_decodeAndValidate d token .refresh
  refine ((yields_good hin (by decide) h).and ((yields_decodeAndValidate token w).and
    (Program.ensures_raises (raises_decodeAndValidate token) w))).bind
    (fun claims w₁ h₁ => ?_) fun e w₁ h₁ => herror e w₁ h₁.1 (h₁.2.2 e rfl)
  obtain ⟨hgood₁,⟨hdata,hstill,hclaims⟩,_⟩ := h₁
  obtain ⟨payload,encoding,htoken,hjti,hsid,hexp⟩ := hclaims claims rfl
  refine ((yields_refreshIds claims w₁).and
    (Program.ensures_raises (raises_refreshIds claims) w₁)).bind (fun ids w₂ h₂ => ?_)
    fun e w₂ h₂ => herror e w₂ (h₂.1.1 ▸ hgood₁) (h₂.2 e rfl)
  obtain ⟨⟨rfl,hids⟩,_⟩ := h₂
  obtain ⟨htokenJti,sid,hs,hparse⟩ := hids ids rfl
  refine ((yields_getByJtiForUpdate ids.tokenJti w₂).and
    (Program.ensures_raises (raises_getByJtiForUpdate ids.tokenJti) w₂)).bind
    (fun found w₃ h₃ => ?_) fun e w₃ h₃ => herror e w₃ (h₃.1.1 ▸ hgood₁) (h₃.2 e rfl)
  obtain ⟨⟨rfl,hfound,hnone⟩,_⟩ := h₃
  refine hok ids found w₃ ⟨hgood₁,hdata,⟨payload,encoding,sid,htoken,hsid.symm.trans hs,hparse,hexp⟩,
    fun record he => ?_,fun he sessionId record hp => ?_⟩
  · rw [←hdata]
    exact hfound record (congrArg Except.ok he)
  · have hmem : record∈tokensOf w₃.data.work := hdata ▸ hp.stored
    obtain ⟨s,_,_,payload',encoding',hrow,hrowJti,_⟩ := hgood₁.work.owners record hmem
    have hsame : RawToken.signed payload' encoding'=.signed payload encoding :=
      congrArg Hmac.message (hrow.symm.trans (hp.tokenHash.trans (congrArg _ htoken)))
    obtain ⟨rfl,_⟩ := RawToken.signed.inj hsame
    rw [hjti,hrowJti,UUID.parse_str] at htokenJti
    exact hnone (congrArg Except.ok he) record hmem (Option.some.inj htokenJti)

/-- The reuse of a token was detected: its family and session are revoked. -/
structure Reused (d : Deployment) (F : UUID → Prop) (w w' : World) (token : RawToken)
    (sessionId : UUID) : Prop where
  /-- The ledgers. -/
  good : Good d F w'
  /-- Nothing is committed. -/
  committed : w'.data.committed=w.data.committed
  /-- The row was used before. -/
  used : ∃ record, Presented d w.env w.data.work token sessionId record ∧
    (record.revokedAt≠none ∨ record.rotatedAt≠none)
  /-- The session is dead. -/
  dead : ∀ s∈sessionsOf w'.data.work,s.id=sessionId → Dead w'.data.work s.refreshFamilyId
  /-- The session is stored. -/
  drawn : sessionId.int<w'.env.draws

/-- How a rotation ends. -/
structure Rotation (d : Deployment) (F : UUID → Prop) (w : World) (token : RawToken)
    (o : Except Failure TokenPair) (w' : World) : Prop where
  /-- The ledgers. -/
  good : Good d F w'
  /-- Only tokens of open families are renewed. -/
  renewed : ∀ pair, o=.ok pair → ¬F pair.refreshFamilyId ∧
    (∃ s∈sessionsOf w'.data.work,s.refreshFamilyId=pair.refreshFamilyId ∧ s.id=pair.sessionId) ∧
    ∃ record∈tokensOf w.data.work,record.tokenHash=hashRefreshToken d token ∧
      record.familyId=pair.refreshFamilyId
  /-- A reused token closes its family. -/
  reused : ∀ sessionId familyId, o=.error (.tokenReuseDetected sessionId familyId) →
    Reused d F w w' token sessionId

/-- A failure other than a reused token leaves a good world. -/
theorem Rotation.failed {w' : World} {token : RawToken} {e : Failure} (h : Good d F w')
    (he : NotReuse e) : Rotation d F w token (.error e) w' :=
  ⟨h,fun _ => nofun,fun _ _ hs => absurd (Except.error.inj hs) (he _ _)⟩

/-- A used token closes its family. -/
theorem yields_reuse {token : RawToken} {record : RefreshToken} {sessionId familyId : UUID}
    {w₀ : World} (h : Good d F w) (hdata : w.data=w₀.data)
    (hrecord : Presented d w₀.env w₀.data.work token sessionId record)
    (hused : record.revokedAt≠none ∨ record.rotatedAt≠none) {session : UserSession}
    (hsession : session∈sessionsOf w.data.work) (hfamily : session.refreshFamilyId=familyId)
    (hid : session.id=sessionId) :
    Yields ((RefreshTokenRepository.revokeFamily familyId "reuse_detected").bind fun _ =>
      (SessionRepository.revokeFamily familyId).bind fun _ =>
        (.raise (.tokenReuseDetected sessionId familyId) : Action TokenPair)) w
      (Rotation d F w₀ token) := by
  refine (yields_revokeTokensWhere (fun r => r.familyId==familyId) "reuse_detected" w).bind
    (fun _ w₁ h₁ => ?_) fun e w₁ h₁ => absurd h₁.1 nofun
  obtain ⟨_,f,hr₁,hrevoked⟩ := h₁
  refine (yields_revokeSessionsWhere (fun s => s.refreshFamilyId==familyId) w₁).bind
    (fun _ w₂ h₂ => ?_) fun e w₂ h₂ => absurd h₂.1 nofun
  obtain ⟨_,g,hr₂,_⟩ := h₂
  have hgood := (h.revised hr₁).revised hr₂
  refine ⟨hgood,fun _ => nofun,fun sid fid he => ?_⟩
  obtain ⟨rfl,rfl⟩ := Failure.tokenReuseDetected.inj (Except.error.inj he)
  have hdead : Dead w₂.data.work familyId :=
    hr₂.keeps_dead (hr₁.dead fun r _ hfam => hrevoked r (by simp [hfam]))
  have hstored : g session∈sessionsOf w₂.data.work := by
    rw [hr₂.sessions,hr₁.sessions,List.map_id']
    exact List.mem_map.mpr ⟨session,hsession,rfl⟩
  have hgid : (g session).id=sessionId := (hr₂.keepsSession.id session).trans hid
  have hgfam : (g session).refreshFamilyId=familyId :=
    (hr₂.keepsSession.refreshFamilyId session).trans hfamily
  refine ⟨hgood,?_,⟨record,hrecord,hused⟩,fun s hs hsid => ?_,?_⟩
  · rw [←hdata,←hr₁.committed]
    exact hr₂.committed
  · rw [hgood.work.ids s hs (g session) hstored (hsid.trans hgid.symm),hgfam]
    exact hdead
  · rw [←hgid]
    exact (hgood.work.drawn (g session) hstored).1

/-- A rotation renews only tokens of open families. -/
theorem yields_rotate (token : RawToken) (h : Good d F w) :
    Yields (rotate d token ip ua) w (Rotation d F w token) := by
  have hinvalid : ∀ message, NotReuse (.invalidToken message) := fun _ _ _ => nofun
  refine yields_lookup token h (fun ids found w₄ hlooked => ?_) fun e w' hg he => .failed hg he
  obtain ⟨hgood₁,hdata,hnames,hfound,_⟩ := hlooked
  cases found with
  | none => exact .failed hgood₁ (hinvalid _)
  | some record =>
    have hrecord : record∈tokensOf w₄.data.work := hdata ▸ hfound record rfl
    simp only [Program.monad_throw,Program.monad_bind,Program.raise_bind]
    split
    · exact .failed hgood₁ (hinvalid _)
    · rename_i hclaimed
      split
      · exact .failed hgood₁ (hinvalid _)
      · rename_i hhash
        have hfam : record.familyId=ids.familyId := by tauto
        have hsame : record.tokenHash=hashRefreshToken d token := not_not.mp hhash
        obtain ⟨session,hsession,hsf,hid⟩ := hgood₁.work.owner hrecord hsame hnames
        refine (yields_isFamilyActive ids.familyId w₄).bind (fun active w₄ h₄ => ?_)
          fun e w₄ h₄ => absurd h₄.2 (by rintro ⟨_,hok,_⟩; cases hok)
        obtain ⟨rfl,_,hok,hactive⟩ := h₄
        obtain rfl := Except.ok.inj hok
        split
        · exact .failed hgood₁ (hinvalid _)
        · rename_i htrue
          obtain ⟨active,hmem,haf,hnone⟩ := hactive (by simpa using htrue)
          obtain rfl : active=session :=
            hgood₁.work.families active hmem session hsession (haf.trans (hfam ▸ hsf.symm))
          refine ((yields_good inside_utcNow (by decide) hgood₁).and (yields_utcNow w₄)).bind
            (fun now w₅ h₅ => ?_) fun e w₅ h₅ => absurd h₅.2.1 (by rintro ⟨_,hok⟩; cases hok)
          obtain ⟨hgood₅,_,hdata₅,hstill₅⟩ := h₅
          have hpresented : Presented d w.env w.data.work token ids.sessionId record :=
            ⟨hdata ▸ hrecord,hsame,hnames⟩
          split
          · exact .failed hgood₅ (hinvalid _)
          · split
            · rename_i hused
              have hused' : record.revokedAt≠none ∨ record.rotatedAt≠none := by
                simpa [Option.isSome_iff_ne_none] using hused
              exact yields_reuse hgood₅ (hdata₅.trans hdata) hpresented hused'
                (hdata₅ ▸ hsession) haf hid
            · rename_i hfresh
              have hlive : record.revokedAt=none := by
                by_contra hr
                exact hfresh (by simp [Option.isSome_iff_ne_none,hr])
              have hrecord₅ : record∈tokensOf w₅.data.work := hdata₅ ▸ hrecord
              have hsession₅ : active∈sessionsOf w₅.data.work := hdata₅ ▸ hsession
              have hopen : ¬F ids.familyId := by
                intro hclosed
                rcases hgood₅.work.dead _ hclosed with hdead | hdead
                · exact hdead active hsession₅ haf hnone
                · exact hdead record hrecord₅ hfam hlive
              refine ((yields_exchange hgood₅ hrecord₅ hsession₅ haf hid hfam hlive hopen).and
                (Program.ensures_raises (raises_exchange record ids) w₅)).mono fun o w₆ h₆ => ?_
              obtain ⟨⟨hgood₆,hpair⟩,hraises⟩ := h₆
              refine ⟨hgood₆,fun pair hp => ?_,fun _ _ he =>
                absurd rfl (notReuse_of_databaseFailure (hraises _ he) _ _)⟩
              obtain ⟨hpf,hstored⟩ := hpair pair hp
              rw [hpf]
              exact ⟨hopen,hstored,record,hdata ▸ hrecord,hsame,hfam⟩

end Exchanges

section Closings

variable {d : Deployment} {F : UUID → Prop} {env : Environment} {ids : List UUID} {w : World}
  {ip ua : Option String}

/-- The audit table accepts the address and the program of a client. -/
abbrev Auditable (ip ua : Option String) : Prop := (fits 64 ip && fits 512 ua)=true

/-- Some sessions have been marked since an environment; the ledgers hold
without these markers. -/
structure Marking (d : Deployment) (F : UUID → Prop) (env : Environment) (ids : List UUID)
    (w : World) : Prop where
  /-- The working copy. -/
  work : Ledger d F env w.data.work
  /-- The committed tables. -/
  committed : Ledger d F env w.data.committed
  /-- The draws. -/
  draws : env.draws ≤ w.env.draws
  /-- The new markers. -/
  marked : ∀ x, Marked w.env x → Marked env x ∨ ∃ id∈ids,x=id.str

/-- With no session left to mark, a good world is one in marking. -/
theorem Good.marking (h : Good d F w) : Marking d F w.env [] w :=
  ⟨h.work,h.committed,Nat.le_refl _,fun _ hm => .inl hm⟩

/-- Marking goes on where tokens, sessions and the committed rows are still. -/
theorem Marking.still {w' : World} (h : Marking d F env ids w) (hs : Still w w')
    (hc : w'.data.committed=w.data.committed) : Marking d F env ids w' := by
  refine ⟨h.work.congr (Nat.le_refl _) (fun _ hm => hm) hs.tokens hs.sessions,?_,
    h.draws.trans hs.draws,fun x hx => h.marked x (hs.marked x hx)⟩
  rw [hc]
  exact h.committed

/-- Marking goes on where rows are only revoked further. -/
theorem Marking.revised {w' : World} {f : RefreshToken → RefreshToken}
    {g : UserSession → UserSession} (h : Marking d F env ids w) (hr : Revised f g w w') :
    Marking d F env ids w' := by
  refine ⟨h.work.revise hr.keepsToken hr.keepsSession hr.tokens hr.sessions,?_,
    h.draws.trans hr.draws,fun x hx => h.marked x (hr.marked x hx)⟩
  rw [hr.committed]
  exact h.committed

/-- A marker is always set. -/
theorem yields_markAccessSessionRevoked (sessionId : UUID) (h : Marking d F env ids w) :
    Yields (markAccessSessionRevoked d sessionId) w fun o w' => o=.ok () ∧ w'.data=w.data ∧
      w.env.draws ≤ w'.env.draws ∧ Marking d F env (sessionId::ids) w' := by
  have hpos : revocationTtl d≠0 := by
    unfold revocationTtl
    omega
  unfold markAccessSessionRevoked redisSet
  rw [if_neg hpos]
  refine ⟨rfl,rfl,Nat.le_refl _,h.work,h.committed,h.draws,fun x hx => ?_⟩
  by_cases hkey : x=sessionId.str
  · exact .inr ⟨sessionId,List.mem_cons_self,hkey⟩
  · have hne : RedisKey.accessSessionRevoked x≠.accessSessionRevoked sessionId.str := by
      simpa using hkey
    have hold : Marked w.env x := by
      intro hn
      exact hx ((Store.assign_of_ne _ _ _ hne).trans hn)
    rcases h.marked x hold with hm | ⟨id,hid,he⟩
    · exact .inl hm
    · exact .inr ⟨id,List.mem_cons_of_mem _ hid,he⟩

/-- All markers of a list are set. -/
theorem yields_markAccessSessionsRevoked (sessionIds : List UUID) (h : Marking d F env ids w) :
    Yields (markAccessSessionsRevoked d sessionIds) w fun o w' => o=.ok () ∧ w'.data=w.data ∧
      w.env.draws ≤ w'.env.draws ∧ Marking d F env (sessionIds.reverse++ids) w' := by
  induction sessionIds generalizing ids w with
  | nil => exact ⟨rfl,rfl,Nat.le_refl _,h⟩
  | cons sessionId rest ih =>
    refine (yields_markAccessSessionRevoked sessionId h).bind (fun _ w₁ h₁ => ?_)
      fun e w₁ h₁ => absurd h₁.1 nofun
    obtain ⟨_,hdata,hdraws,hm⟩ := h₁
    refine (ih hm).mono fun o w₂ h₂ => ?_
    obtain ⟨hok,hdata₂,hdraws₂,hm₂⟩ := h₂
    refine ⟨hok,hdata₂.trans hdata,hdraws.trans hdraws₂,?_⟩
    rw [List.reverse_cons,List.append_assoc]
    exact hm₂

/-- An audit row is rejected only for its address or program. -/
theorem yields_logEvent (eventType outcome : String) (userId : Option UUID)
    (payload : List (String×PyValue)) (w : World) :
    Yields (AuditService.logEvent d eventType outcome userId userId ip ua payload) w fun o w' =>
      (o=.ok () ∧ Still w w' ∧ w'.data.committed=w.data.committed) ∨
        ¬Auditable ip ua ∧ o=.error .dataError ∧ w'=w := by
  have hin := inside_logEvent d eventType outcome userId userId ip ua payload
  have hstill := yields_still hin (by decide) w
  have hcommitted := yields_committed hin (by decide) w
  unfold Yields Program.Ensures at hstill hcommitted ⊢
  by_cases hvalid : Auditable ip ua
  · refine .inl ⟨?_,hstill,hcommitted⟩
    have haccepted : valid .auditEvents
        ⟨eventType,outcome,userId,userId,ip,ua,AuditService.sanitizePayload d payload⟩=true :=
      hvalid
    have hconflict : (w.data.work .auditEvents).any (conflict .auditEvents
        ⟨eventType,outcome,userId,userId,ip,ua,AuditService.sanitizePayload d payload⟩)=false := by
      simp [conflict]
    exact congrArg Prod.fst (run_insertRow (t := .auditEvents) haccepted hconflict)
  · have hinvalid : valid .auditEvents
        ⟨eventType,outcome,userId,userId,ip,ua,AuditService.sanitizePayload d payload⟩=false :=
      Bool.eq_false_iff.mpr hvalid
    refine .inr ⟨hvalid,?_,?_⟩
    · exact congrArg Prod.fst (run_insertRow_invalid (t := .auditEvents) hinvalid)
    · exact congrArg Prod.snd (run_insertRow_invalid (t := .auditEvents) hinvalid)

/-- The committed tables have a ledger with more closed families. -/
def Settled (d : Deployment) (F : UUID → Prop) (G : UUID → Prop) (w : World) : Prop :=
  ∃ F', (∀ x, F x → F' x) ∧ (∀ x, G x → F' x) ∧ Ledger d F' w.env w.data.committed

/-- A ledger with some families closed is one with fewer of them asked for. -/
theorem Settled.mono {G G' : UUID → Prop} (h : Settled d F G w) (hg : ∀ x, G' x → G x) :
    Settled d F G' w := by
  obtain ⟨F',hkeep,hnew,hledger⟩ := h
  exact ⟨F',hkeep,fun x hx => hnew x (hg x hx),hledger⟩

/-- A good world is settled where no family has to be closed. -/
theorem Good.settled {G : UUID → Prop} (h : Good d F w) (hg : ∀ x, ¬G x) : Settled d F G w :=
  ⟨F,fun _ hf => hf,fun x hx => absurd hx (hg x),h.committed⟩

/-- The audit row and the commit after some sessions have been marked. -/
theorem Marking.finish {α : Type} {k : Action α} {eventType outcome : String}
    {userId : Option UUID} {payload : List (String×PyValue)} (h : Marking d F env ids w)
    (hdrawn : ∀ id∈ids,id.int<w.env.draws)
    (hwork : ∀ s∈sessionsOf w.data.work,s.id∈ids → Dead w.data.work s.refreshFamilyId)
    (hcommitted : ¬Auditable ip ua → ∀ s∈sessionsOf w.data.committed,s.id∈ids →
      Dead w.data.committed s.refreshFamilyId)
    (hk : ∀ w, Yields k w fun _ w' => w'=w) :
    Yields ((AuditService.logEvent d eventType outcome userId userId ip ua payload).bind fun _ =>
      commit.bind fun _ => k) w fun o w' => Settled d F (fun x => o≠.error .dataError ∧ ∃ s∈sessionsOf w.data.work,s.id∈ids ∧
          s.refreshFamilyId=x) w' := by
  refine (yields_logEvent eventType outcome userId payload w).bind (fun _ w₁ h₁ => ?_)
    fun e w₁ h₁ => ?_
  · rcases h₁ with ⟨_,hstill,hc⟩ | ⟨_,he,_⟩
    · have hm := h.still hstill hc
      have hlater : ∀ id∈ids,id.int<w₁.env.draws := fun id hid => (hdrawn id hid).trans_le hstill.draws
      have hdead : ∀ s∈sessionsOf w₁.data.work,s.id∈ids →
          Dead w₁.data.work s.refreshFamilyId := by
        intro s hs hid
        rw [hstill.sessions] at hs
        unfold Dead
        rw [hstill.sessions,hstill.tokens]
        exact hwork s hs hid
      have hledger := hm.work.close hm.draws hm.marked hlater hdead
      have hcommit : Yields commit w₁ fun o w₂ => o=.ok () ∧ w₂.env=w₁.env ∧
          w₂.data.committed=w₁.data.work := ⟨rfl,rfl,rfl⟩
      refine hcommit.bind (fun _ w₂ h₂ => (hk w₂).mono fun o w₃ h₃ => ?_)
        fun e w₂ h₂ => absurd h₂.1 nofun
      obtain ⟨_,henv,hdata⟩ := h₂
      refine ⟨Closing F w₁.data.work ids,fun _ hf => .inl hf,fun x hx => .inr ?_,?_⟩
      · rw [hstill.sessions]
        exact hx.2
      · rw [h₃,henv,hdata]
        exact hledger
    · cases he
  · rcases h₁ with ⟨he,_⟩ | ⟨hlong,he,rfl⟩
    · cases he
    · obtain rfl := Except.error.inj he
      refine ⟨Closing F w₁.data.committed ids,fun _ hf => .inl hf,
        fun x hx => absurd rfl hx.1,?_⟩
      exact h.committed.close h.draws h.marked hdrawn (hcommitted hlong)

/-- The handler of a failed rotation marks reused sessions only. -/
theorem yields_refreshFailed {w₀ : World} {token : RawToken} {e : Failure}
    (h₀ : Good d F w₀) (hsame : w₀.data.committed=w₀.data.work)
    (haudit : ¬Auditable ip ua → ∀ record sessionId, Presented d w₀.env w₀.data.work token sessionId record →
      record.revokedAt≠none ∨ record.rotatedAt≠none → Dead w₀.data.work record.familyId)
    (h : Rotation d F w₀ token (.error e) w) :
    Yields (AuthService.refreshFailed d ip ua e) w fun _ w' => Settled d F (fun _ => False) w' := by
  have hno : ∀ {w' : World}, Good d F w' → Settled d F (fun _ => False) w' :=
    fun hg => hg.settled fun _ hf => hf
  cases e with
  | tokenReuseDetected sessionId familyId =>
    have hreused := h.reused sessionId familyId rfl
    refine (yields_markAccessSessionRevoked sessionId hreused.good.marking).bind
      (fun _ w₁ h₁ => ?_) fun e w₁ h₁ => absurd h₁.1 nofun
    obtain ⟨_,hdata,hdraws,hmarking⟩ := h₁
    have hdrawn : ∀ id∈[sessionId],id.int<w₁.env.draws := by
      intro id hid
      rw [List.mem_singleton.mp hid]
      exact hreused.drawn.trans_le hdraws
    have hwork : ∀ s∈sessionsOf w₁.data.work,s.id∈[sessionId] →
        Dead w₁.data.work s.refreshFamilyId := by
      rw [hdata]
      exact fun s hs hid => hreused.dead s hs (List.mem_singleton.mp hid)
    have hcommitted : ¬Auditable ip ua → ∀ s∈sessionsOf w₁.data.committed,s.id∈[sessionId] →
        Dead w₁.data.committed s.refreshFamilyId := by
      intro hlong s hs hid
      obtain ⟨record,hrecord,hused⟩ := hreused.used
      rw [hdata,hreused.committed,hsame] at hs ⊢
      obtain ⟨t,ht,htf,htid⟩ := h₀.work.owner hrecord.stored hrecord.tokenHash hrecord.names
      rw [h₀.work.ids s hs t ht ((List.mem_singleton.mp hid).trans htid.symm),htf]
      exact haudit hlong record sessionId hrecord hused
    have hraise : ∀ w : World, Yields
        (.raise (.tokenReuseDetected sessionId familyId) : Action TokenPair) w
        fun _ w' => w'=w := fun _ => rfl
    exact (hmarking.finish hdrawn hwork hcommitted hraise).mono fun _ _ h₂ =>
      h₂.mono fun _ hf => hf.elim
  | invalidToken message =>
    refine good_bind (inside_logEvent _ _ _ _ _ _ _ _) (by decide) h.good (fun _ w₁ h₁ => ?_)
      fun e w₁ h₁ => hno h₁
    exact good_bind inside_commit (by decide) h₁ (fun _ w₂ h₂ => hno h₂) fun e w₂ h₂ => hno h₂
  | _ => exact hno h.good

/-- The handler of a failed rotation always raises. -/
theorem yields_refreshFailed_error (e : Failure) (w : World) :
    Yields (AuthService.refreshFailed d ip ua e) w fun o _ => ∀ pair, o≠.ok pair := by
  cases e with
  | tokenReuseDetected sessionId familyId =>
    exact yields_skip (fun _ _ => yields_skip (fun _ _ => yields_skip (fun _ _ _ => nofun)
      fun _ _ _ => nofun) fun _ _ _ => nofun) fun _ _ _ => nofun
  | invalidToken message =>
    exact yields_skip (fun _ _ => yields_skip (fun _ _ _ => nofun) fun _ _ _ => nofun)
      fun _ _ _ => nofun
  | _ => exact fun _ => nofun

/-- A renewed token belongs to an open family, its session is not marked. -/
structure Renewed (d : Deployment) (F : UUID → Prop) (w w' : World) (token : RawToken)
    (pair : TokenPair) : Prop where
  /-- Its family is open. -/
  isOpen : ¬F pair.refreshFamilyId
  /-- Its session is not marked. -/
  unmarked : ¬Marked w'.env pair.sessionId.str
  /-- It replaces a token of its family. -/
  row : ∃ record∈tokensOf w.data.work,record.tokenHash=hashRefreshToken d token ∧
    record.familyId=pair.refreshFamilyId

/-- The audit row and the commit after a rotation. -/
theorem yields_auditRotation {w₀ : World} {token : RawToken} {pair : TokenPair}
    (h : Rotation d F w₀ token (.ok pair) w) :
    Yields (do
      AuditService.logEvent d "auth.refresh.success" "success" none none ip ua []
      commit
      return pair : Action TokenPair) w fun o w' =>
        Good d F w' ∧ ∀ pair, o=.ok pair → Renewed d F w₀ w' token pair := by
  obtain ⟨hopen,⟨s,hs,hsf,hid⟩,hrow⟩ := h.renewed pair rfl
  refine (yields_kept (inside_logEvent _ _ _ _ _ _ _ _) (by decide) h.good).bind
    (fun _ w₁ h₁ => ?_) fun e w₁ h₁ => ⟨h₁.1,fun _ => nofun⟩
  obtain ⟨hgood₁,hstill₁⟩ := h₁
  refine (yields_kept inside_commit (by decide) hgood₁).bind (fun _ w₂ h₂ => ?_)
    fun e w₂ h₂ => ⟨h₂.1,fun _ => nofun⟩
  obtain ⟨hgood₂,hstill₂⟩ := h₂
  refine ⟨hgood₂,fun pair' hp => ?_⟩
  obtain rfl := Except.ok.inj hp
  refine ⟨hopen,fun hm => hopen ?_,hrow⟩
  have hstored : s∈sessionsOf w₂.data.work := by
    rw [hstill₂.sessions,hstill₁.sessions]
    exact hs
  rw [←hid] at hm
  rw [←hsf]
  exact hgood₂.work.marked s hstored hm

/-- How a refresh succeeds. -/
theorem yields_renewed (token : RawToken) (h : Good d F w) :
    Yields (AuthService.refreshTokens d token ip ua) w fun o w' =>
      ∀ pair, o=.ok pair → Renewed d F w w' token pair := by
  have htry : Yields (tryCatch (rotate d token ip ua) (AuthService.refreshFailed d ip ua)) w
      fun o w' => ∀ pair, o=.ok pair → Rotation d F w token (.ok pair) w' :=
    (yields_rotate token h).handle (fun pair w₁ h₁ pair' hp => hp ▸ h₁) fun e w₁ _ =>
      (yields_refreshFailed_error e w₁).mono fun _ _ hno pair hp => absurd hp (hno pair)
  exact htry.bind (fun pair w₁ h₁ => (yields_auditRotation (h₁ pair rfl)).mono fun _ _ h₂ => h₂.2)
    fun e w₁ _ _ => nofun

/-- How a refresh ends: closed families stay closed. -/
theorem yields_refreshTokens (token : RawToken) (h : Good d F w)
    (hsame : w.data.committed=w.data.work)
    (haudit : ¬Auditable ip ua → ∀ record sessionId,
      Presented d w.env w.data.work token sessionId record →
        record.revokedAt≠none ∨ record.rotatedAt≠none → Dead w.data.work record.familyId) :
    Yields (AuthService.refreshTokens d token ip ua) w fun _ w' =>
      Settled d F (fun _ => False) w' := by
  have htry : Yields (tryCatch (rotate d token ip ua) (AuthService.refreshFailed d ip ua)) w
      fun o w' => (∀ pair, o=.ok pair → Rotation d F w token (.ok pair) w') ∧
        ∀ e, o=.error e → Settled d F (fun _ => False) w' := by
    refine (yields_rotate token h).handle (fun pair w₁ h₁ => ⟨fun pair' hp => hp ▸ h₁,fun _ => nofun⟩)
      fun e w₁ h₁ => ?_
    refine ((yields_refreshFailed h hsame haudit h₁).and (yields_refreshFailed_error e w₁)).mono
      fun o w₂ h₂ => ?_
    exact ⟨fun pair hp => absurd hp (h₂.2 pair),fun _ _ => h₂.1⟩
  refine htry.bind (fun pair w₁ h₁ => ?_) fun e w₁ h₁ => h₁.2 e rfl
  exact (yields_auditRotation (h₁.1 pair rfl)).mono fun _ _ h₂ => h₂.1.settled fun _ hf => hf

/-- What a sign-out has done before it sets the marker. -/
structure SignedOut (d : Deployment) (F : UUID → Prop) (w w' : World) (token : RawToken)
    (revokeFamily : Bool) (result : RefreshRevocationResult)
    (pending : Option PendingRevocation) : Prop where
  /-- The ledgers. -/
  good : Good d F w'
  /-- Nothing is committed. -/
  committed : w'.data.committed=w.data.committed
  /-- The family of a stored session is revoked, or one token will be. -/
  record : ∃ record, Presented d w.env w.data.work token result.sessionId record ∧
    (∃ s∈sessionsOf w'.data.work,s.id=result.sessionId ∧ s.refreshFamilyId=record.familyId) ∧
    ((pending=none ∧ Dead w'.data.work record.familyId) ∨
      ∃ reason now, pending=some ⟨record,reason,now⟩ ∧ revokeFamily=false ∧ w'.data=w.data)

/-- A revocation revokes the family, or leaves one token to the next flush. -/
theorem yields_revoke (token : RawToken) (revokeFamily : Bool) (reason : String)
    (h : Good d F w) :
    Yields (revoke d token revokeFamily reason) w fun o w' => Good d F w' ∧
      (o=.ok none → ∀ sessionId record, ¬Presented d w.env w.data.work token sessionId record) ∧
      ∀ result pending, o=.ok (some (result,pending)) →
        SignedOut d F w w' token revokeFamily result pending := by
  have hfail : ∀ w' e, Good d F w' → Good d F w' ∧
      ((Except.error e : Except Failure (Option (RefreshRevocationResult×Option PendingRevocation)))=
        .ok none → ∀ sessionId record, ¬Presented d w.env w.data.work token sessionId record) ∧
      ∀ result pending, (Except.error e : Except Failure
        (Option (RefreshRevocationResult×Option PendingRevocation)))=.ok (some (result,pending)) →
          SignedOut d F w w' token revokeFamily result pending :=
    fun w' e hg => ⟨hg,nofun,fun _ _ => nofun⟩
  refine yields_lookup token h (fun ids found w₁ hlooked => ?_) fun e w' hg _ => hfail w' e hg
  obtain ⟨hgood₁,hdata,hnames,hfound,hmissing⟩ := hlooked
  cases found with
  | none => exact ⟨hgood₁,fun _ => hmissing rfl,fun _ _ => nofun⟩
  | some record =>
    have hrecord : record∈tokensOf w₁.data.work := hdata ▸ hfound record rfl
    simp only [Program.monad_throw,Program.monad_bind,Program.raise_bind]
    split
    · exact hfail _ _ hgood₁
    · rename_i hhash
      split
      · exact hfail _ _ hgood₁
      · rename_i hfamily
        split
        · exact hfail _ _ hgood₁
        · have hfam : record.familyId=ids.familyId := not_not.mp hfamily
          have hpresented : Presented d w.env w.data.work token ids.sessionId record :=
            ⟨hfound record rfl,not_not.mp hhash,hnames⟩
          obtain ⟨session,hsession,hsf,hid⟩ :=
            hgood₁.work.owner hrecord (not_not.mp hhash) hnames
          split
          · refine (yields_revokeTokensWhere (fun r => r.familyId==ids.familyId) reason w₁).bind
              (fun _ w₂ h₂ => ?_) fun e w₂ h₂ => absurd h₂.1 nofun
            obtain ⟨_,f,hr₂,hrevoked⟩ := h₂
            refine (yields_revokeSessionsWhere (fun s => s.refreshFamilyId==ids.familyId) w₂).bind
              (fun _ w₃ h₃ => ?_) fun e w₃ h₃ => absurd h₃.1 nofun
            obtain ⟨_,g,hr₃,_⟩ := h₃
            have hgood₃ := (hgood₁.revised hr₂).revised hr₃
            have hstored : g session∈sessionsOf w₃.data.work := by
              rw [hr₃.sessions,hr₂.sessions,List.map_id']
              exact List.mem_map.mpr ⟨session,hsession,rfl⟩
            refine ⟨hgood₃,nofun,fun result pending hp => ?_⟩
            obtain ⟨rfl,rfl⟩ := Prod.mk.inj (Option.some.inj (Except.ok.inj hp))
            refine ⟨hgood₃,?_,record,hpresented,⟨g session,hstored,
              (hr₃.keepsSession.id session).trans hid,
              (hr₃.keepsSession.refreshFamilyId session).trans hsf⟩,.inl ⟨rfl,?_⟩⟩
            · rw [←hdata,←hr₂.committed]
              exact hr₃.committed
            · rw [hfam]
              exact hr₃.keeps_dead (hr₂.dead fun r _ hrf => hrevoked r (by simp [hrf]))
          · rename_i hsingle
            refine ((yields_good inside_utcNow (by decide) hgood₁).and (yields_utcNow w₁)).bind
              (fun now w₂ h₂ => ?_) fun e w₂ h₂ => hfail w₂ e h₂.1
            obtain ⟨hgood₂,_,hdata₂,_⟩ := h₂
            have hcommitted : w₂.data.committed=w.data.committed := by rw [hdata₂,hdata]
            refine ⟨hgood₂,nofun,fun result pending hp => ?_⟩
            obtain ⟨rfl,rfl⟩ := Prod.mk.inj (Option.some.inj (Except.ok.inj hp))
            refine ⟨hgood₂,hcommitted,record,hpresented,⟨session,hdata₂ ▸ hsession,hid,hsf⟩,
              .inr ⟨reason,now,rfl,by simpa using hsingle,hdata₂.trans hdata⟩⟩

/-- The flush of a sign-out leaves its family dead. -/
theorem yields_flushRevocation {record : RefreshToken} {pending : Option PendingRevocation}
    {revokeFamily : Bool} {w₀ : World} (h : Marking d F env ids w)
    (hunique : (tokensOf w₀.data.work).Pairwise fun a b => conflict .refreshTokens a b=false)
    (hrecord : record∈tokensOf w₀.data.work)
    (hrow : Dead w₀.data.work record.familyId ∨ revokeFamily=true ∨ record.revokedAt=none)
    (hcase : (pending=none ∧ Dead w.data.work record.familyId) ∨
      ∃ reason now, pending=some ⟨record,reason,now⟩ ∧ revokeFamily=false ∧ w.data=w₀.data) :
    Yields (flushRevocation pending) w fun o w' => o=.ok () ∧ Marking d F env ids w' ∧
      sessionsOf w'.data.work=sessionsOf w.data.work ∧ Dead w'.data.work record.familyId ∧
      w'.data.committed=w.data.committed ∧ w.env.draws ≤ w'.env.draws := by
  rcases hcase with ⟨rfl,hdead⟩ | ⟨reason,now,rfl,rfl,hdata⟩
  · exact ⟨rfl,h,rfl,hdead,rfl,Nat.le_refl _⟩
  · have hkeeps : KeepsToken fun r => {r with
        revokedAt := some now, revocationReason := some reason, replacedByJti := none} :=
      ⟨fun _ => rfl,fun _ => rfl,fun _ => rfl,fun _ _ => nofun⟩
    have hapart : ∀ a b : RefreshToken, (a.jti==record.jti)=true → (b.jti==record.jti)=true →
        conflict .refreshTokens a b=true := by
      intro a b ha hb
      simp only [conflict,beq_iff_eq] at ha hb ⊢
      rw [ha,hb]
    have hone : ((w.data.work .refreshTokens).filter fun r : RefreshToken =>
        r.jti==record.jti).length=1 := by
      rw [hdata]
      exact filter_length_eq_one hunique hrecord (by simp) hapart
    have hflush := yields_flushToken (fun r => r.jti==record.jti) hkeeps w
    have hok : Yields (flushRevocation (some ⟨record,reason,now⟩)) w fun o _ => o=.ok () := by
      have hrun : (flushRevocation (some ⟨record,reason,now⟩)).run World.perform w=(.ok (),_) :=
        run_flushUpdate hone
      exact congrArg Prod.fst hrun
    refine (hok.and hflush).mono fun o w' h' => ?_
    obtain ⟨hend,hr⟩ := h'
    refine ⟨hend,h.revised hr,by rw [hr.sessions,List.map_id'],?_,hr.committed,hr.draws⟩
    rcases hrow with hdead | hfalse | hlive
    · rw [←hdata] at hdead
      exact hr.keeps_dead hdead
    · cases hfalse
    · refine hr.dead fun r hmem hfam => ?_
      by_cases hsame : r.jti=record.jti
      · rw [if_pos (by simp [hsame])]
        exact nofun
      · rw [if_neg (by simp [hsame])]
        intro hnone
        have hstored : record∈tokensOf w.data.work := hdata ▸ hrecord
        exact hsame (congrArg _ (h.work.live r hmem record hstored hfam hnone hlive))

/-- How a sign-out ends: the family of its token is closed. -/
theorem yields_revokeRefreshToken (token : RawToken) (revokeFamily : Bool) (h : Good d F w)
    (hsame : w.data.committed=w.data.work)
    (hunique : (tokensOf w.data.work).Pairwise fun a b => conflict .refreshTokens a b=false)
    (hrow : ∀ record sessionId, Presented d w.env w.data.work token sessionId record →
      Dead w.data.work record.familyId ∨
        Auditable ip ua ∧ (revokeFamily=true ∨ record.revokedAt=none)) :
    Yields (AuthService.revokeRefreshToken d token revokeFamily ip ua) w fun o w' =>
      Settled d F (fun x => o=.ok () ∧ ∃ record sessionId,
        Presented d w.env w.data.work token sessionId record ∧ record.familyId=x) w' := by
  refine (yields_revoke token revokeFamily "logout" h).bind (fun result w₁ h₁ => ?_)
    fun e w₁ h₁ => h₁.1.settled fun x hx => absurd hx.1 nofun
  obtain ⟨hgood₁,hnone,hsome⟩ := h₁
  cases result with
  | none =>
    have hmissing := hnone rfl
    have hno : ∀ {w' : World} {o : Except Failure Unit}, Good d F w' →
        Settled d F (fun x => o=.ok () ∧ ∃ record sessionId,
          Presented d w.env w.data.work token sessionId record ∧ record.familyId=x) w' := by
      intro w' o hg
      refine hg.settled fun x hx => ?_
      obtain ⟨_,record,sessionId,hp,_⟩ := hx
      exact hmissing sessionId record hp
    exact good_bind (inside_logEvent _ _ _ _ _ _ _ _) (by decide) hgood₁
      (fun _ w₂ h₂ => (yields_good inside_commit (by decide) h₂).mono fun _ _ h₃ => hno h₃)
      fun e w₂ h₂ => hno h₂
  | some result =>
    obtain ⟨revocation,pending⟩ := result
    have hout := hsome revocation pending rfl
    obtain ⟨record,hpresented,⟨session,hsession,hid,hsf⟩,hcase⟩ := hout.record
    obtain ⟨owner,howner,hof,hoid⟩ :=
      h.work.owner hpresented.stored hpresented.tokenHash hpresented.names
    refine (yields_markAccessSessionRevoked revocation.sessionId hgood₁.marking).bind
      (fun _ w₂ h₂ => ?_) fun e w₂ h₂ => absurd h₂.1 nofun
    obtain ⟨_,hdata₂,hdraws₂,hmarking₂⟩ := h₂
    have hrow' : Dead w.data.work record.familyId ∨ revokeFamily=true ∨ record.revokedAt=none :=
      (hrow record _ hpresented).imp_right fun hr => hr.2
    rw [←hdata₂] at hcase hsession
    refine (yields_flushRevocation hmarking₂ hunique hpresented.stored hrow' hcase).bind
      (fun _ w₃ h₃ => ?_) fun e w₃ h₃ => absurd h₃.1 nofun
    obtain ⟨_,hmarking₃,hsessions₃,hdead,hcommitted₃,hdraws₃⟩ := h₃
    rw [←hsessions₃] at hsession
    have hdrawn : ∀ id∈[revocation.sessionId],id.int<w₃.env.draws := by
      intro id hmem
      rw [List.mem_singleton.mp hmem,←hid]
      exact (hmarking₃.work.drawn session hsession).1.trans_le hmarking₃.draws
    have hwork : ∀ s∈sessionsOf w₃.data.work,s.id∈[revocation.sessionId] →
        Dead w₃.data.work s.refreshFamilyId := by
      intro s hs hmem
      rw [hmarking₃.work.ids s hs session hsession ((List.mem_singleton.mp hmem).trans hid.symm),hsf]
      exact hdead
    have hbefore : w₃.data.committed=w.data.work := by
      rw [hcommitted₃,hdata₂,hout.committed,hsame]
    have hcommitted : ¬Auditable ip ua → ∀ s∈sessionsOf w₃.data.committed,
        s.id∈[revocation.sessionId] → Dead w₃.data.committed s.refreshFamilyId := by
      intro hlong s hs hmem
      rw [hbefore] at hs ⊢
      rw [h.work.ids s hs owner howner ((List.mem_singleton.mp hmem).trans hoid.symm),hof]
      exact (hrow record _ hpresented).resolve_right fun hr => hlong hr.1
    have hdone : ∀ w : World, Yields (.pure () : Action Unit) w fun _ w' => w'=w := fun _ => rfl
    refine (hmarking₃.finish hdrawn hwork hcommitted hdone).mono fun o w₄ h₄ => h₄.mono ?_
    rintro x ⟨rfl,other,sid,hother,rfl⟩
    refine ⟨nofun,session,hsession,List.mem_singleton.mpr hid,?_⟩
    obtain ⟨owner',howner',hof',hoid'⟩ :=
      h.work.owner hother.stored hother.tokenHash hother.names
    have hnamed : sid=revocation.sessionId := hother.names.unique hpresented.names
    rw [hsf,←hof,←hof',h.work.ids owner howner owner' howner' (by rw [hoid,hoid',hnamed])]

/-- The sessions a password reset closes. -/
def activeIds (w : World) (userId : UUID) : List UUID :=
  ((sessionsOf w.data.work).filter fun s => s.userId==userId && s.revokedAt.isNone).map (·.id)

/-- The listed ids are those of the user's unrevoked sessions. -/
theorem mem_activeIds {userId id : UUID} : id∈activeIds w userId ↔
    ∃ s∈sessionsOf w.data.work,s.userId=userId ∧ s.revokedAt=none ∧ s.id=id := by
  simp [activeIds,and_assoc]

/-- A changed password closes every active session of the user. -/
theorem yields_changePassword (user : AuthRepositories.LoadedUser) (record : PasswordResetToken)
    (now : Instant) (newPassword identifier account : String) (h : Good d F w)
    (hsame : w.data.committed=w.data.work)
    (hclose : ¬Auditable ip ua → ∀ t∈sessionsOf w.data.work,t.userId=user.row.id →
      t.revokedAt=none → Dead w.data.work t.refreshFamilyId) :
    Yields (PasswordResetService.changePassword d user record now newPassword identifier account
      ip ua) w fun _ w' => Settled d F (fun _ => False) w' := by
  have hno : ∀ {w' : World}, Good d F w' → Settled d F (fun _ => False) w' :=
    fun hg => hg.settled fun _ hf => hf
  refine ((yields_kept (inside_hashPassword d newPassword) (by decide) h).and
    (yields_committed (inside_hashPassword d newPassword) (by decide) w)).bind
    (fun hash w₁ h₁ => ?_) fun e w₁ h₁ => hno h₁.1.1
  obtain ⟨⟨hgood₁,hstill₁⟩,hc₁⟩ := h₁
  have husers := inside_flushUpdate .users (fun u : User => u.id==user.row.id) fun u =>
    {u with
      passwordHash := hash
      loginBlocked := if user.row.loginBlocked then false else u.loginBlocked}
  refine ((yields_kept husers (by decide) hgood₁).and (yields_committed husers (by decide) w₁)).bind
    (fun _ w₂ h₂ => ?_) fun e w₂ h₂ => hno h₂.1.1
  obtain ⟨⟨hgood₂,hstill₂⟩,hc₂⟩ := h₂
  have hcodes := inside_flushUpdate .passwordResetTokens
    (fun r : PasswordResetToken => r.id==record.id) fun r => {r with usedAt := some now}
  refine ((yields_kept hcodes (by decide) hgood₂).and (yields_committed hcodes (by decide) w₂)).bind
    (fun _ w₃ h₃ => ?_) fun e w₃ h₃ => hno h₃.1.1
  obtain ⟨⟨hgood₃,hstill₃⟩,hc₃⟩ := h₃
  have hlist : Yields (SessionRepository.listActiveSessionIdsForUser user.row.id) w₃ fun o w' =>
      o=.ok (activeIds w₃ user.row.id) ∧ w'=w₃ := ⟨rfl,rfl⟩
  refine hlist.bind (fun ids w₄ h₄ => ?_) fun e w₄ h₄ => absurd h₄.1 nofun
  obtain ⟨hids,rfl⟩ := h₄
  obtain rfl := Except.ok.inj hids
  refine (yields_revokeTokensWhere (fun r => r.userId==user.row.id) "password_reset" w₄).bind
    (fun _ w₅ h₅ => ?_) fun e w₅ h₅ => absurd h₅.1 nofun
  obtain ⟨_,f,hr₅,_⟩ := h₅
  refine (yields_revokeSessionsWhere (fun s => s.userId==user.row.id) w₅).bind
    (fun _ w₆ h₆ => ?_) fun e w₆ h₆ => absurd h₆.1 nofun
  obtain ⟨_,g,hr₆,hrevoked⟩ := h₆
  have hgood₆ := (hgood₃.revised hr₅).revised hr₆
  refine (yields_markAccessSessionsRevoked (activeIds w₄ user.row.id) hgood₆.marking).bind
    (fun _ w₇ h₇ => ?_) fun e w₇ h₇ => absurd h₇.1 nofun
  obtain ⟨_,hdata₇,_,hmarking₇⟩ := h₇
  rw [List.append_nil] at hmarking₇
  have hclear : ∀ (scope : Scope) (identifier : String) (w : World),
      Yields (BruteForceProtectionService.clearFailures d scope identifier) w fun o w' =>
        o=.ok () ∧ Still w w' ∧ w'.data=w.data := by
    intro scope identifier w
    have hin := inside_clearFailures d scope identifier
    have hok : Yields (BruteForceProtectionService.clearFailures d scope identifier) w
        fun o _ => o=.ok () := rfl
    exact hok.and ((yields_still hin (by decide) w).and (yields_data hin (by decide) w))
  refine (hclear .passwordReset identifier w₇).bind (fun _ w₈ h₈ => ?_)
    fun e w₈ h₈ => absurd h₈.1 nofun
  obtain ⟨_,hstill₈,hdata₈⟩ := h₈
  refine (hclear .passwordResetAccount account w₈).bind (fun _ w₉ h₉ => ?_)
    fun e w₉ h₉ => absurd h₉.1 nofun
  obtain ⟨_,hstill₉,hdata₉⟩ := h₉
  have hmarking₉ := (hmarking₇.still hstill₈ (by rw [hdata₈])).still hstill₉ (by rw [hdata₉])
  have hdata : w₉.data=w₆.data := by rw [hdata₉,hdata₈,hdata₇]
  have hsessions : sessionsOf w₉.data.work=(sessionsOf w₄.data.work).map g := by
    rw [hdata,hr₆.sessions,hr₅.sessions,List.map_id']
  have hstored : ∀ t∈sessionsOf w₄.data.work,g t∈sessionsOf w₉.data.work := by
    intro t ht
    rw [hsessions]
    exact List.mem_map.mpr ⟨t,ht,rfl⟩
  have hclosed : ∀ id∈(activeIds w₄ user.row.id).reverse,∃ t∈sessionsOf w₄.data.work,
      t.userId=user.row.id ∧ t.revokedAt=none ∧ t.id=id := fun id hid =>
    mem_activeIds.mp (List.mem_reverse.mp hid)
  have hdrawn : ∀ id∈(activeIds w₄ user.row.id).reverse,id.int<w₉.env.draws := by
    intro id hid
    obtain ⟨t,ht,_,_,rfl⟩ := hclosed id hid
    rw [←hr₆.keepsSession.id t]
    exact (hmarking₉.work.drawn (g t) (hstored t ht)).1.trans_le hmarking₉.draws
  have hwork : ∀ s∈sessionsOf w₉.data.work,s.id∈(activeIds w₄ user.row.id).reverse →
      Dead w₉.data.work s.refreshFamilyId := by
    intro s hs hid
    obtain ⟨t,ht,hu,_,htid⟩ := hclosed s.id hid
    refine .inl fun s' hs' hfam => ?_
    have hid' : s.id=(g t).id := htid.symm.trans (hr₆.keepsSession.id t).symm
    have hst : s=g t := hmarking₉.work.ids s hs (g t) (hstored t ht) hid'
    rw [hmarking₉.work.families s' hs' s hs hfam,hst]
    exact hrevoked t (by simp [hu])
  have hbefore : w₉.data.committed=w.data.work := by
    rw [hdata,hr₆.committed,hr₅.committed,hc₃,hc₂,hc₁,hsame]
  have hcommitted : ¬Auditable ip ua → ∀ s∈sessionsOf w₉.data.committed,
      s.id∈(activeIds w₄ user.row.id).reverse → Dead w₉.data.committed s.refreshFamilyId := by
    intro hlong s hs hid
    rw [hbefore] at hs ⊢
    obtain ⟨t,ht,hu,hactive,htid⟩ := hclosed s.id hid
    rw [hstill₃.sessions,hstill₂.sessions,hstill₁.sessions] at ht
    obtain rfl : s=t := h.work.ids s hs t ht htid.symm
    exact hclose hlong s hs hu hactive
  have hdone : ∀ w : World, Yields (.pure () : Action Unit) w fun _ w' => w'=w := fun _ => rfl
  exact (hmarking₉.finish hdrawn hwork hcommitted hdone).mono fun o w' h' =>
    h'.mono fun _ hf => hf.elim

/-- A stored reset code that may still change the password of an account. -/
structure Redeemable (d : Deployment) (env : Environment) (db : Database authSchema)
    (email code : String) (u : User) (r : PasswordResetToken) : Prop where
  /-- The account is stored. -/
  account : u∈db .users
  /-- It has the address. -/
  email : u.email=d.lower (d.lower email)
  /-- Its resets are not blocked. -/
  unblocked : u.passwordResetBlocked=false
  /-- The code is stored. -/
  stored : r∈db .passwordResetTokens
  /-- It is the row of the code. -/
  tokenHash : r.tokenHash=PasswordResetService.hashToken d code
  /-- It belongs to the account. -/
  userId : r.userId=u.id
  /-- It is unused. -/
  unused : r.usedAt=none
  /-- It has not expired. -/
  unexpired : env.clock ≤ r.expiresAt

/-- How a reset ends: closed families stay closed. -/
theorem yields_resetPassword (email code newPassword : String) (h : Good d F w)
    (hsame : w.data.committed=w.data.work)
    (hrow : ¬Auditable ip ua → ∀ u r, Redeemable d w.env w.data.work email code u r →
      ∀ t∈sessionsOf w.data.work,t.userId=u.id → t.revokedAt=none →
        Dead w.data.work t.refreshFamilyId) :
    Yields (PasswordResetService.resetPassword d email code newPassword ip ua) w fun _ w' =>
      Settled d F (fun _ => False) w' := by
  have hno : ∀ {w' : World}, Good d F w' → Settled d F (fun _ => False) w' :=
    fun hg => hg.settled fun _ hf => hf
  have hrefuse : ∀ user w', Good d F w' → Yields (PasswordResetService.refuseCode d
      (d.lower email++":"++orUnknown ip) (d.lower email) user) w' fun _ w'' =>
        Settled d F (fun _ => False) w'' := fun user w' hg =>
    (yields_good (inside_refuseCode d _ _ user) (by decide) hg).mono fun _ _ hg' => hno hg'
  have hlock : ∀ scope identifier w', Good d F w' → Yields
      (BruteForceProtectionService.assertNotLocked d scope identifier) w' fun _ w'' =>
        (Good d F w'' ∧ Still w' w'') ∧ w''.data=w'.data := fun scope identifier w' hg =>
    (yields_kept (inside_assertNotLocked d scope identifier) (by decide) hg).and
      (yields_data (inside_assertNotLocked d scope identifier) (by decide) w')
  refine (hlock _ _ w h).bind (fun _ w₁ h₁ => ?_) fun e w₁ h₁ => hno h₁.1.1
  obtain ⟨⟨hgood₁,hstill₁⟩,hdata₁⟩ := h₁
  refine (hlock _ _ w₁ hgood₁).bind (fun _ w₂ h₂ => ?_) fun e w₂ h₂ => hno h₂.1.1
  obtain ⟨⟨hgood₂,hstill₂⟩,hdata₂⟩ := h₂
  refine (yields_load _ w₂).bind (fun found w₃ h₃ => ?_) fun e w₃ h₃ => hno (h₃.1 ▸ hgood₂)
  obtain ⟨rfl,hfound⟩ := h₃
  have hdata : w₃.data=w.data := hdata₂.trans hdata₁
  cases found with
  | none => exact hrefuse none w₃ hgood₂
  | some user =>
    obtain ⟨hstored,hemail⟩ := hfound user rfl
    simp only [Program.monad_throw,Program.monad_bind]
    split
    · exact hno hgood₂
    · rename_i hunblocked
      have hcode : Yields (PasswordResetRepository.getActiveForUserByHash user.row.id
          (PasswordResetService.hashToken d code)) w₃ fun o w' => w'=w₃ ∧
            ∀ r, o=.ok (some r) → r∈w₃.data.work .passwordResetTokens ∧
              r.tokenHash=PasswordResetService.hashToken d code ∧ r.userId=user.row.id ∧
                r.usedAt=none := by
        have hspec := yields_scalarOneOrNone ((w₃.data.work .passwordResetTokens).filter
          fun r : PasswordResetToken => r.tokenHash==PasswordResetService.hashToken d code &&
            r.userId==user.row.id && r.usedAt.isNone) w₃
        refine ⟨hspec.1,fun r hr => ?_⟩
        obtain ⟨hmem,hq⟩ := List.mem_filter.mp (hspec.2.1 r hr)
        simp only [Bool.and_eq_true,beq_iff_eq,Option.isNone_iff_eq_none] at hq
        exact ⟨hmem,hq.1.1,hq.1.2,hq.2⟩
      refine hcode.bind (fun record w₄ h₄ => ?_) fun e w₄ h₄ => hno (h₄.1 ▸ hgood₂)
      obtain ⟨rfl,hrecord⟩ := h₄
      cases record with
      | none => exact hrefuse _ w₄ hgood₂
      | some record =>
        obtain ⟨hmem,hhash,huser,hunused⟩ := hrecord record rfl
        dsimp only
        split
        · exact hrefuse _ w₄ hgood₂
        · have hnow : Yields utcNow w₄ fun o w' => (∃ now, o=.ok now ∧ w₄.env.clock ≤ now) ∧
              w'.data=w₄.data ∧ Still w₄ w' :=
            ⟨⟨_,rfl,Nat.le_add_right _ _⟩,rfl,still_perform (by decide) w₄⟩
          refine hnow.bind (fun now w₅ h₅ => ?_)
            fun e w₅ h₅ => absurd h₅.1 (by rintro ⟨_,hok,_⟩; cases hok)
          obtain ⟨⟨_,hok,hclock⟩,hdata₅,hstill₅⟩ := h₅
          obtain rfl := Except.ok.inj hok
          have hgood₅ : Good d F w₅ := by
            refine ⟨hgood₂.work.still hstill₅,?_⟩
            rw [hdata₅]
            exact hgood₂.committed.congr hstill₅.draws hstill₅.marked rfl rfl
          split
          · exact hrefuse _ w₅ hgood₅
          · rename_i hunexpired
            have hsame₅ : w₅.data=w.data := hdata₅.trans hdata
            refine yields_changePassword user record _ newPassword _ _ hgood₅
              (by rw [hsame₅,hsame]) fun hlong => ?_
            rw [hsame₅]
            refine hrow hlong user.row record ⟨hdata ▸ hstored,by simpa using hemail,
              by simpa using hunblocked,hdata ▸ hmem,hhash,huser,hunused,?_⟩
            have hlater := hstill₁.clock.trans hstill₂.clock
            exact (hlater.trans hclock).trans (Nat.le_of_not_lt hunexpired)

end Closings

section SignIns

open AuthService BruteForceProtectionService

variable {α β : Type} {fp : List Access} {d : Deployment} {G : World → Prop} {w : World}
  {ip ua : Option String}

/-- An invariant of worlds that accesses outside sessions, tokens and markers
and the issue of tokens keep. -/
structure KeptBySignIn (d : Deployment) (G : World → Prop) : Prop where
  /-- An access outside. -/
  outside : ∀ op w,(∀ a∈accesses op,Outside a) → G w → G (World.perform op w).2
  /-- Tokens for a new session. -/
  issued : ∀ userId ip ua w,G w → Yields (issueForUser d userId ip ua) w fun _ w' => G w'

/-- An invariant of worlds that accesses outside sessions, tokens, markers and
the signing key and the issue of tokens keep. -/
structure KeptUnsigned (d : Deployment) (G : World → Prop) : Prop where
  /-- An access outside that signs nothing. -/
  outside : ∀ op w,(∀ a∈accesses op,Outside a ∧ a≠.sign) → G w → G (World.perform op w).2
  /-- Tokens for a new session. -/
  issued : ∀ userId ip ua w,G w → Yields (issueForUser d userId ip ua) w fun _ w' => G w'

/-- What all accesses outside keep is kept by those that sign nothing. -/
theorem KeptBySignIn.unsigned (hG : KeptBySignIn d G) : KeptUnsigned d G :=
  ⟨fun op w hop h => hG.outside op w (fun a ha => (hop a ha).1) h,hG.issued⟩

/-- A part of a request without a signature keeps the property. -/
theorem KeptUnsigned.inside {p : Action α} (hG : KeptUnsigned d G) (hp : Inside p fp)
    (hfp : ∀ a∈fp,Outside a ∧ a≠.sign) (h : G w) : Yields p w fun _ w' => G w' := by
  have hkeep : Yields p w fun _ w' => G w → G w' :=
    Program.ensures_within (fun w w' => G w → G w') (fun _ h => h)
      (by intro _ _ _ h h' hg; exact h' (h hg))
      (fun op w hop hg => hG.outside op w (fun a ha => hfp a (hop a ha)) hg) hp w
  exact hkeep h

/-- A sequence whose first part keeps the invariant. -/
theorem KeptUnsigned.sequence {p : Action α} {f : α → Action β} (hG : KeptUnsigned d G)
    (hp : Inside p fp) (hfp : ∀ a∈fp,Outside a ∧ a≠.sign) (h : G w)
    (hok : ∀ a w',G w' → Yields (f a) w' fun _ w'' => G w'') :
    Yields (p.bind f) w fun _ w' => G w' :=
  (hG.inside hp hfp h).bind (fun a w' hw => hok a w' hw) fun _ _ hw => hw

/-- Granting access keeps the property. -/
theorem KeptUnsigned.grantAccess (hG : KeptUnsigned d G) (user : LoadedUser)
    (email identifier : String) (h : G w) :
    Yields (grantAccess d user email identifier ip ua) w fun _ w' => G w' := by
  refine hG.sequence (inside_clearFailures d _ _) (by decide) h fun _ w₁ h₁ => ?_
  refine hG.sequence (inside_clearFailures d _ _) (by decide) h₁ fun _ w₂ h₂ => ?_
  split
  · exact hG.sequence (inside_createLoginChallenge d _ _) (by decide) h₂ fun _ _ h => h
  · refine (hG.issued user.row.id ip ua _ h₂).bind (fun _ w₃ h₃ => ?_) fun _ _ h₃ => h₃
    refine hG.sequence (inside_logEvent _ _ _ _ _ _ _ _) (by decide) h₃ fun _ w₄ h₄ => ?_
    exact hG.sequence inside_commit (by decide) h₄ fun _ _ h => h

/-- A login keeps the property. -/
theorem KeptUnsigned.login (hG : KeptUnsigned d G) (email password : String) (h : G w) :
    Yields (login d email password ip ua) w fun _ w' => G w' := by
  have hreject : ∀ user w', G w' → Yields (rejectPassword d user (d.lower email)
      (d.lower email++":"++orUnknown ip) ip ua) w' fun _ w'' => G w'' :=
    fun user w' hg => hG.inside (inside_rejectPassword d user _ _ ip ua) (by decide) hg
  refine hG.sequence (inside_load _) (by decide) h fun found w₁ h₁ => ?_
  cases found with
  | none =>
    exact hG.sequence (inside_assertNotLocked d _ _) (by decide) h₁ fun _ w₂ h₂ => hreject _ w₂ h₂
  | some user =>
    simp only [Program.monad_throw,Program.monad_bind]
    split
    · exact h₁
    · refine hG.sequence (inside_assertNotLocked d _ _) (by decide) h₁ fun _ w₂ h₂ => ?_
      refine hG.sequence (inside_assertNotLocked d _ _) (by decide) h₂ fun _ w₃ h₃ => ?_
      split
      · exact hreject _ w₃ h₃
      · split
        · exact hG.inside (inside_refuse d _ _ _ _ _) (by decide) h₃
        · exact hG.grantAccess user _ _ h₃

/-- Answering a challenge keeps the property. -/
theorem KeptUnsigned.answerChallenge (hG : KeptUnsigned d G) (user : LoadedUser)
    (challengeId identifier : String) (totp backup : Option String) (h : G w) :
    Yields (answerChallenge d user challengeId identifier totp backup ip ua) w fun _ w' =>
      G w' := by
  have hfactor : Yields (tryCatch (TwoFactorService.verifyForLogin d user totp backup)
      fun failure => do
        if failure=.invalidTwoFactorCode then
          let _ ← recordFailure d .twoFactor identifier
          refuse d (some user.row.id) ip ua [("reason",.str "invalid_2fa")] .invalidTwoFactorCode
        else throw failure) w fun _ w' => G w' := by
    have hin := inside_verifyForLogin d user totp backup
    refine (hG.inside hin (by decide) h).handle (fun _ _ h => h) fun e w₁ h₁ => ?_
    simp only [Program.monad_throw,Program.monad_bind]
    split
    · refine hG.sequence (inside_recordFailure d _ _) (by decide) h₁ fun _ w₂ h₂ => ?_
      exact hG.inside (inside_refuse d _ _ _ _ _) (by decide) h₂
    · exact h₁
  refine hfactor.bind (fun factor w₁ h₁ => ?_) fun _ _ h₁ => h₁
  refine hG.sequence (inside_clearFailures d _ _) (by decide) h₁ fun _ w₂ h₂ => ?_
  refine hG.sequence (inside_deleteLoginChallenge _) (by decide) h₂ fun _ w₃ h₃ => ?_
  refine hG.sequence (inside_flushFactor factor) (by decide) h₃ fun _ w₄ h₄ => ?_
  refine (hG.issued user.row.id ip ua _ h₄).bind (fun _ w₅ h₅ => ?_) fun _ _ h₅ => h₅
  refine hG.sequence (inside_logEvent _ _ _ _ _ _ _ _) (by decide) h₅ fun _ w₆ h₆ => ?_
  exact hG.sequence inside_commit (by decide) h₆ fun _ _ h => h

/-- The second step of a sign-in keeps the property. -/
theorem KeptUnsigned.verifyLoginChallenge (hG : KeptUnsigned d G) (challengeId : String)
    (totp backup : Option String)
    (h : G w) :
    Yields (verifyLoginChallenge d challengeId totp backup ip ua) w fun _ w' => G w' := by
  refine hG.sequence (inside_assertNotLocked d _ _) (by decide) h fun _ w₁ h₁ => ?_
  refine hG.sequence (inside_getLoginChallenge _) (by decide) h₁ fun found w₂ h₂ => ?_
  cases found with
  | none => exact h₂
  | some challenge =>
    simp only [Program.monad_throw,Program.monad_bind]
    split
    · refine hG.sequence (inside_recordFailure d _ _) (by decide) h₂ fun _ w₃ h₃ => ?_
      refine hG.sequence (inside_deleteLoginChallenge _) (by decide) h₃ fun _ w₄ h₄ => ?_
      exact hG.inside (inside_refuse d _ _ _ _ _) (by decide) h₄
    · split
      · exact h₂
      · refine hG.sequence (inside_load _) (by decide) h₂ fun found w₃ h₃ => ?_
        cases found with
        | none => exact h₃
        | some user =>
          dsimp only
          split
          · refine hG.sequence (inside_deleteLoginChallenge _) (by decide) h₃ fun _ w₄ h₄ => ?_
            exact hG.inside (inside_refuse d _ _ _ _ _) (by decide) h₄
          · exact hG.answerChallenge user _ _ totp backup h₃

/-- A login keeps what every sign-in keeps. -/
theorem KeptBySignIn.login (hG : KeptBySignIn d G) (email password : String) (h : G w) :
    Yields (login d email password ip ua) w fun _ w' => G w' :=
  hG.unsigned.login email password h

/-- The second step keeps what every sign-in keeps. -/
theorem KeptBySignIn.verifyLoginChallenge (hG : KeptBySignIn d G) (challengeId : String)
    (totp backup : Option String) (h : G w) :
    Yields (verifyLoginChallenge d challengeId totp backup ip ua) w fun _ w' => G w' :=
  hG.unsigned.verifyLoginChallenge challengeId totp backup h

end SignIns

section Requests

variable {d : Deployment} {F : UUID → Prop} {w : World} {ip ua : Option String}

open AuthService BruteForceProtectionService

/-- The ledgers are kept by sign-ins. -/
theorem good_signIn : KeptBySignIn d (Good d F) :=
  ⟨fun _ _ hop h => good_perform hop h,fun userId _ _ _ h => yields_issueForUser userId h⟩

end Requests

section Theorem

variable {d : Deployment} {F : UUID → Prop}

/-- The condition under which a call leaves markers and tables consistent. A
sign-out or a reset that sets a marker must also be able to commit, and the
token of a single sign-out must be the current one of its family; calls on
families that are dead already are free. -/
def Consistent (d : Deployment) (s : ServerState) : Input → Prop
  | .call ⟨.revokeRefreshToken token revokeFamily,ip,ua⟩ _ =>
    ∀ record sessionId, Presented d s.env s.db token sessionId record →
      Dead s.db record.familyId ∨ Auditable ip ua ∧ (revokeFamily=true ∨ record.revokedAt=none)
  | .call ⟨.refreshTokens token,ip,ua⟩ _ =>
    ∀ record sessionId, Presented d s.env s.db token sessionId record →
      record.revokedAt≠none ∨ record.rotatedAt≠none →
        Dead s.db record.familyId ∨ Auditable ip ua
  | .call ⟨.resetPassword email code _,ip,ua⟩ _ =>
    ∀ u r, Redeemable d s.env s.db email code u r → ∀ t∈sessionsOf s.db,t.userId=u.id →
      t.revokedAt=none → Dead s.db t.refreshFamilyId ∨ Auditable ip ua
  | _ => True

/-- The families whose sign-out succeeded. -/
def SignOuts (d : Deployment) (s : ServerState) : Input → UUID → Prop
  | .call ⟨.revokeRefreshToken token revokeFamily,ip,ua⟩ choices,familyId =>
    (s.serve d ⟨.revokeRefreshToken token revokeFamily,ip,ua⟩ choices).1=.ok .done ∧
      ∃ record sessionId, Presented d s.env s.db token sessionId record ∧
        record.familyId=familyId
  | _,_ => False

/-- Every consistent input keeps the ledger and closes the families of its
sign-out. -/
theorem ledger_next {s : ServerState} {input : Input} (hsound : Sound s.env s.db)
    (h : Ledger d F s.env s.db) (hc : Consistent d s input) :
    ∃ F', (∀ x, F x → F' x) ∧ (∀ x, SignOuts d s input x → F' x) ∧
      Ledger d F' (s.next d input).env (s.next d input).db := by
  cases input with
  | setActive userId active =>
    have htokens : tokensOf (ServerState.switched s.db userId active)=tokensOf s.db :=
      Function.update_of_ne (show Table.refreshTokens≠.users by decide) _ _
    have hsessions : sessionsOf (ServerState.switched s.db userId active)=sessionsOf s.db :=
      Function.update_of_ne (show Table.userSessions≠.users by decide) _ _
    exact ⟨F,fun _ hf => hf,fun _ => nofun,
      h.congr (Nat.le_refl _) (fun _ hm => hm) htokens hsessions⟩
  | elapse delay =>
    exact ⟨F,fun _ hf => hf,fun _ => nofun,h.congr (Nat.le_refl _) (fun _ hm => hm) rfl rfl⟩
  | call client choices =>
    have hgood : Good d F (s.world choices) := ⟨h,h⟩
    have hplain : (∀ x, ¬SignOuts d s (.call client choices) x) →
        Yields (respond d client) (s.world choices) (fun _ w' => Good d F w') →
        ∃ F', (∀ x, F x → F' x) ∧ (∀ x, SignOuts d s (.call client choices) x → F' x) ∧
          Ledger d F' (s.next d (.call client choices)).env (s.next d (.call client choices)).db :=
      fun hno hend => ⟨F,fun _ hf => hf,fun x hx => absurd hx (hno x),hend.committed⟩
    have houtside : ∀ fp, footprint client.request=fp → (∀ a∈fp,Outside a) →
        Yields (respond d client) (s.world choices) fun _ w' => Good d F w' :=
      fun fp hfp ho => yields_good (hfp ▸ inside_respond d client) ho hgood
    obtain ⟨request,ip,ua⟩ := client
    cases request with
    | register email password => exact hplain (fun _ => id) (houtside registration rfl (by decide))
    | login email password =>
      refine hplain (fun _ => id) ?_
      exact (good_signIn.login email password hgood).bind (fun _ _ h => h) fun _ _ h => h
    | verifyLoginChallenge challengeId totp backup =>
      refine hplain (fun _ => id) ?_
      exact (good_signIn.verifyLoginChallenge challengeId totp backup hgood).bind (fun _ _ h => h)
        fun _ _ h => h
    | refreshTokens token =>
      have haudit : ¬Auditable ip ua → ∀ record sessionId,
          Presented d s.env s.db token sessionId record →
            record.revokedAt≠none ∨ record.rotatedAt≠none → Dead s.db record.familyId :=
        fun hlong record sessionId hp hu => (hc record sessionId hp hu).resolve_right hlong
      have hend : Yields (respond d ⟨.refreshTokens token,ip,ua⟩) (s.world choices)
          fun _ w' => Settled d F (fun _ => False) w' :=
        (yields_refreshTokens token hgood rfl haudit).bind (fun _ _ h => h) fun _ _ h => h
      obtain ⟨F',hkeep,_,hledger⟩ := hend
      exact ⟨F',hkeep,fun _ => nofun,hledger⟩
    | revokeRefreshToken token revokeFamily =>
      have hend : Yields (respond d ⟨.revokeRefreshToken token revokeFamily,ip,ua⟩)
          (s.world choices) fun o w' => Settled d F (fun x => o=.ok .done ∧
            ∃ record sessionId, Presented d s.env s.db token sessionId record ∧
              record.familyId=x) w' := by
        refine (yields_revokeRefreshToken token revokeFamily hgood rfl
          (hsound.unique .refreshTokens) hc).bind (fun _ w' h' => ?_) fun _ w' h' => ?_
        · exact h'.mono fun x hx => ⟨rfl,hx.2⟩
        · exact h'.mono fun x hx => absurd hx.1 nofun
      obtain ⟨F',hkeep,hnew,hledger⟩ := hend
      exact ⟨F',hkeep,hnew,hledger⟩
    | requestReset email => exact hplain (fun _ => id) (houtside resetRequest rfl (by decide))
    | resetPassword email code newPassword =>
      have hrow : ¬Auditable ip ua → ∀ u r, Redeemable d s.env s.db email code u r →
          ∀ t∈sessionsOf s.db,t.userId=u.id → t.revokedAt=none →
            Dead s.db t.refreshFamilyId :=
        fun hlong u r hr t ht hu hactive => (hc u r hr t ht hu hactive).resolve_right hlong
      have hend : Yields (respond d ⟨.resetPassword email code newPassword,ip,ua⟩)
          (s.world choices) fun _ w' => Settled d F (fun _ => False) w' :=
        (yields_resetPassword email code newPassword hgood rfl hrow).bind (fun _ _ h => h)
          fun _ _ h => h
      obtain ⟨F',hkeep,_,hledger⟩ := hend
      exact ⟨F',hkeep,fun _ => nofun,hledger⟩
    | currentSession authorization =>
      exact hplain (fun _ => id) (houtside authentication rfl (by decide))
    | _ => exact hplain (fun _ => id) (houtside factorEndpoint rfl (by decide))

/-- Some refresh with a token of the family succeeds. -/
def Refreshable (d : Deployment) (s : ServerState) (familyId : UUID) : Prop :=
  ∃ record∈tokensOf s.db,record.familyId=familyId ∧ ∃ token ip ua choices response,
    record.tokenHash=hashRefreshToken d token ∧
      (s.serve d ⟨.refreshTokens token,ip,ua⟩ choices).1=.ok response

/-- A refresh that succeeds is a renewal in an open family. -/
theorem renewed_of_serve {s : ServerState} {token : RawToken} {ip ua : Option String}
    {choices : List ℕ} {response : Response} (h : Ledger d F s.env s.db)
    (hok : (s.serve d ⟨.refreshTokens token,ip,ua⟩ choices).1=.ok response) :
    ∃ pair, response=.tokens pair ∧ Renewed d F (s.world choices)
      (s.serve d ⟨.refreshTokens token,ip,ua⟩ choices).2 token pair := by
  have hgood : Good d F (s.world choices) := ⟨h,h⟩
  have hend : Yields (respond d ⟨.refreshTokens token,ip,ua⟩) (s.world choices) fun o w' =>
      ∀ response, o=.ok response → ∃ pair, response=.tokens pair ∧
        Renewed d F (s.world choices) w' token pair := by
    refine (yields_renewed token hgood).bind (fun pair w' h' response hr => ?_)
      fun e w' h' response => nofun
    exact ⟨pair,(Except.ok.inj hr).symm,h' pair rfl⟩
  exact hend response hok

/-- Rows of one token are the same row. -/
theorem Ledger.row_unique {env : Environment} {db : Database authSchema} (h : Ledger d F env db)
    {a b : RefreshToken} (ha : a∈tokensOf db) (hb : b∈tokensOf db)
    (hhash : a.tokenHash=b.tokenHash) : a=b := by
  obtain ⟨_,_,_,payload,encoding,hrow,hjti,_⟩ := h.owners a ha
  obtain ⟨_,_,_,payload',encoding',hrow',hjti',_⟩ := h.owners b hb
  have htoken : RawToken.signed payload encoding=.signed payload' encoding' :=
    congrArg Hmac.message (hrow.symm.trans (hhash.trans hrow'))
  obtain ⟨rfl,_⟩ := RawToken.signed.inj htoken
  exact h.jtis a ha b hb (UUID.str_injective (hjti.symm.trans hjti'))

/-- A closed family is not refreshed. -/
theorem Ledger.not_refreshable {s : ServerState} (h : Ledger d F s.env s.db) {familyId : UUID}
    (hclosed : F familyId) : ¬Refreshable d s familyId := by
  rintro ⟨record,hrecord,rfl,token,ip,ua,choices,response,hhash,hok⟩
  obtain ⟨pair,_,hrenewed⟩ := renewed_of_serve h hok
  obtain ⟨row,hrow,hrowHash,hfamily⟩ := hrenewed.row
  obtain rfl : row=record := h.row_unique hrow hrecord (hrowHash.trans hhash.symm)
  exact hrenewed.isOpen (hfamily ▸ hclosed)

/-- A fresh server has nothing to account for. -/
theorem ledger_freshServer (clock : Instant) (draws : ℕ) :
    Ledger d (fun _ => False) (freshServer clock draws).env (freshServer clock draws).db :=
  ⟨fun _ => nofun,fun _ => nofun,fun _ => nofun,fun _ => nofun,fun _ => nofun,fun _ => nofun,
    fun _ => nofun,fun _ hf => hf.elim,fun _ hf => hf.elim,fun _ hm => absurd rfl hm⟩

/-- A flagged session is a dead session: in every run of consistent inputs no
refresh succeeds for a marked session, none returns tokens of a marked session
and no family whose sign-out succeeded is ever refreshed again. -/
theorem flagged_sessions_are_dead {clock : Instant} {draws : ℕ} {trace : Trace} {s : ServerState}
    (h : Runs d (fun _ s input => Consistent d s input) (freshServer clock draws) trace s) :
    (∀ session∈s.db .userSessions,
      s.env.redis.lookup s.env.clock (.accessSessionRevoked session.id.str)≠none →
        ¬Refreshable d s session.refreshFamilyId) ∧
    (∀ token ip ua choices pair,
      (s.serve d ⟨.refreshTokens token,ip,ua⟩ choices).1=.ok (.tokens pair) → ∀ now,
        (s.serve d ⟨.refreshTokens token,ip,ua⟩ choices).2.env.redis.lookup now
          (.accessSessionRevoked pair.sessionId.str)=none) ∧
    ∀ entry∈trace,∀ familyId, SignOuts d entry.1 entry.2 familyId → ¬Refreshable d s familyId := by
  have hrun : Sound s.env s.db ∧ ∃ F, Ledger d F s.env s.db ∧
      ∀ entry∈trace,∀ familyId, SignOuts d entry.1 entry.2 familyId → F familyId := by
    refine h.invariant (fun trace s => Sound s.env s.db ∧ ∃ F, Ledger d F s.env s.db ∧
      ∀ entry∈trace,∀ familyId, SignOuts d entry.1 entry.2 familyId → F familyId) ?_ ?_
    · exact ⟨sound_freshServer clock draws,_,ledger_freshServer clock draws,fun _ => nofun⟩
    · rintro trace s input ⟨hsound,F,hledger,hclosed⟩ hc
      obtain ⟨F',hkeep,hnew,hledger'⟩ := ledger_next hsound hledger hc
      refine ⟨sound_next d input hsound,F',hledger',fun entry hentry familyId hout => ?_⟩
      rcases List.mem_cons.mp hentry with rfl | hold
      · exact hnew familyId hout
      · exact hkeep familyId (hclosed entry hold familyId hout)
  obtain ⟨_,F,hledger,hclosed⟩ := hrun
  refine ⟨fun session hsession hpresent => ?_,fun token ip ua choices pair hok now => ?_,
    fun entry hentry familyId hout => ?_⟩
  · have hmarked : Marked s.env session.id.str := fun hn =>
      hpresent (Store.lookup_eq_none_of_eq_none hn _)
    exact hledger.not_refreshable (hledger.marked session hsession hmarked)
  · obtain ⟨pair',hpair,hrenewed⟩ := renewed_of_serve hledger hok
    obtain rfl := Response.tokens.inj hpair
    exact Store.lookup_eq_none_of_eq_none (not_not.mp hrenewed.unmarked) now
  · exact hledger.not_refreshable (hclosed entry hentry familyId hout)

end Theorem

section Sample

/-- The refresh token that the first sign-in of the first account returns. -/
def firstRefreshToken : RawToken :=
  .signed {
    sub := "11"
    jti := "14"
    iss := "auth-service"
    aud := "platform"
    iat := 3000
    nbf := 3000
    exp := 2595000
    type := .refresh
    sid := some "13"
    familyId := some "12"} 0

/-- The refresh token it is exchanged for. -/
def secondRefreshToken : RawToken :=
  .signed {
    sub := "11"
    jti := "16"
    iss := "auth-service"
    aud := "platform"
    iat := 3000
    nbf := 3000
    exp := 2595000
    type := .refresh
    sid := some "13"
    familyId := some "12"} 0

/-- An account is created, signs in, refreshes and signs out with a token. -/
def sampleSignOut (token : RawToken) : List Input :=
  [.call (fromClient (.register "a@b" "password1")) [],
    .call (fromClient (.login "a@b" "password1")) [],
    .call (fromClient (.refreshTokens firstRefreshToken)) [],
    .call (fromClient (.revokeRefreshToken token false)) []]

/-- A test for consistent inputs. -/
def isConsistent (d : Deployment) (s : ServerState) : Input → Bool
  | .call ⟨.revokeRefreshToken token revokeFamily,ip,ua⟩ _ =>
    (fits 64 ip && fits 512 ua) && (tokensOf s.db).all fun r =>
      r.tokenHash≠hashRefreshToken d token || revokeFamily || r.revokedAt.isNone
  | .call ⟨_,ip,ua⟩ _ => fits 64 ip && fits 512 ua
  | _ => true

/-- The decidable check of an input gives its consistency. -/
theorem consistent_of_isConsistent {d : Deployment} {s : ServerState} {input : Input}
    (h : isConsistent d s input=true) : Consistent d s input := by
  cases input with
  | call client choices =>
    obtain ⟨request,ip,ua⟩ := client
    cases request with
    | revokeRefreshToken token revokeFamily =>
      intro record sessionId hp
      obtain ⟨hfits,hall⟩ := (Bool.and_eq_true _ _).mp h
      have hrow := List.all_eq_true.mp hall record hp.stored
      simp only [hp.tokenHash,ne_eq,not_true_eq_false,decide_false,Bool.false_or,Bool.or_eq_true,
        Option.isNone_iff_eq_none] at hrow
      exact .inr ⟨hfits,hrow⟩
    | refreshTokens token => exact fun _ _ _ _ => .inr h
    | resetPassword email code newPassword => exact fun _ _ _ _ _ _ _ => .inr h
    | _ => trivial
  | _ => trivial

/-- A sign-out with the current token leaves the session dead. -/
theorem flagged_sessions_are_dead_signOut : ∃ trace s,
    performAll sampleDeployment (fun _ => isConsistent sampleDeployment)
      (sampleSignOut secondRefreshToken) [] (freshServer (seconds 3000) 10)=some (trace,s) ∧
    (∀ session∈s.db .userSessions,
      s.env.redis.lookup s.env.clock (.accessSessionRevoked session.id.str)≠none →
        ¬Refreshable sampleDeployment s session.refreshFamilyId) ∧
    (∀ token ip ua choices pair,
      (s.serve sampleDeployment ⟨.refreshTokens token,ip,ua⟩ choices).1=.ok (.tokens pair) →
        ∀ now, (s.serve sampleDeployment ⟨.refreshTokens token,ip,ua⟩ choices).2.env.redis.lookup
          now (.accessSessionRevoked pair.sessionId.str)=none) ∧
    ∀ entry∈trace,∀ familyId, SignOuts sampleDeployment entry.1 entry.2 familyId →
      ¬Refreshable sampleDeployment s familyId := by
  have hsome : (performAll sampleDeployment (fun _ => isConsistent sampleDeployment)
      (sampleSignOut secondRefreshToken) [] (freshServer (seconds 3000) 10)).isSome=true := by
    decide +kernel
  obtain ⟨⟨trace,s⟩,hperform⟩ := Option.isSome_iff_exists.mp hsome
  exact ⟨trace,s,hperform,flagged_sessions_are_dead (runs_of_performAll
    (fun _ _ _ hc => consistent_of_isConsistent hc) .refl hperform)⟩

/-- A marked session of a state whose current token is still exchanged. -/
def revives (d : Deployment) (token : RawToken) (s : ServerState) : Bool :=
  (s.db .userSessions).any fun (session : UserSession) =>
    (s.env.redis.lookup s.env.clock (.accessSessionRevoked session.id.str)).isSome &&
      (tokensOf s.db).any fun record => record.familyId==session.refreshFamilyId &&
        record.tokenHash==hashRefreshToken d token &&
          (s.serve d (fromClient (.refreshTokens token)) []).1.isOk

/-- A sign-out with the exchanged token marks the session, and the current
token still renews it. -/
theorem marked_session_refreshes : ∃ trace s,
    Runs sampleDeployment (fun _ _ _ => True) (freshServer (seconds 3000) 10) trace s ∧
      ∃ session∈s.db .userSessions,
        s.env.redis.lookup s.env.clock (.accessSessionRevoked session.id.str)≠none ∧
          Refreshable sampleDeployment s session.refreshFamilyId := by
  have hrun : (performAll sampleDeployment (fun _ _ _ => true) (sampleSignOut firstRefreshToken) []
      (freshServer (seconds 3000) 10)).any (fun result =>
        revives sampleDeployment secondRefreshToken result.2)=true := by
    decide +kernel
  obtain ⟨⟨trace,s⟩,hperform,hrevives⟩ := (Option.any_eq_true _ _).mp hrun
  obtain ⟨session,hsession,hq⟩ := List.any_eq_true.mp hrevives
  obtain ⟨hmarker,hany⟩ := (Bool.and_eq_true _ _).mp hq
  obtain ⟨record,hrecord,hr⟩ := List.any_eq_true.mp hany
  simp only [Bool.and_eq_true,beq_iff_eq] at hr
  obtain ⟨⟨hfamily,hhash⟩,hok⟩ := hr
  have hresponse : ∃ response, (s.serve sampleDeployment
      (fromClient (.refreshTokens secondRefreshToken)) []).1=.ok response := by
    cases hserve : (s.serve sampleDeployment
        (fromClient (.refreshTokens secondRefreshToken)) []).1 with
    | ok response => exact ⟨response,rfl⟩
    | error e =>
      rw [hserve] at hok
      cases hok
  obtain ⟨response,hserve⟩ := hresponse
  have hpresent : s.env.redis.lookup s.env.clock (.accessSessionRevoked session.id.str)≠none := by
    intro hn
    rw [hn] at hmarker
    cases hmarker
  exact ⟨trace,s,runs_of_performAll (fun _ _ _ _ => trivial) .refl hperform,session,hsession,
    hpresent,record,hrecord,hfamily,secondRefreshToken,_,_,[],response,hhash,hserve⟩

end Sample


end BackendPlatform.SessionMarkers
