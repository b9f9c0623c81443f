import BackendPlatform.UserSteps

/-!
# First contacts

The first request of a subject creates its user, profile, default role and
audit row. All four are committed together or not at all, and no request
creates them twice. The context itself never commits them, because a flush
empties what the session counts as new; only an endpoint that commits on its
own keeps them.
-/

set_option autoImplicit false

namespace BackendPlatform.FirstContacts

open ProgramTrees TransactionalTables
open AuthRecords (UUID fits)
open UserRecords UserRequests UserSteps

section Enrolments

variable {n : ℕ} {db db' : Tables} {subject other : UUID} {ip ua : Option String}

/-- An audit row of the bootstrap of a subject. -/
def isBootstrap (subject : UUID) (event : AuditEvent) : Bool :=
  event.eventType==auditUserBootstrapped && event.targetUserId==some subject

/-- A subject has exactly one user, one profile, one default role and one audit
row of its bootstrap. -/
structure Enrolled (db : Tables) (subject : UUID) : Prop where
  /-- The user. -/
  user : (appUsersOf db).filter (fun r => r.externalSubject==subject.str)=
    [⟨subject,subject.str,true⟩]
  /-- The profile. -/
  profile : ((profilesOf db).filter fun r => r.userId==subject).length=1
  /-- The default role. -/
  role : ∃ role∈rolesOf db,role.name=roleUser ∧
    ((userRolesOf db).filter fun r => r.userId==subject && r.roleId==role.id).length=1
  /-- The audit row. -/
  audit : ((auditEventsOf db).filter (isBootstrap subject)).length=1

/-- A row of a subject. -/
def Concerns (subject : UUID) : (t : Table) → Row t → Prop
  | .appUsers,r => r.id=subject ∨ r.externalSubject=subject.str
  | .userProfiles,r => r.userId=subject
  | .userRoles,r => r.userId=subject
  | .auditEvents,r => isBootstrap subject r=true
  | _,_ => False

/-- No row of the subject is stored. -/
def Absent (db : Tables) (subject : UUID) : Prop := ∀ t,∀ row∈db t,¬Concerns subject t row

/-- Rows of others leave a subject absent. -/
theorem Absent.append (h : Absent db subject) {t : Table} {row : Row t}
    (hrow : ¬Concerns subject t row) : Absent (append db t row) subject := by
  intro u r hr
  by_cases hu : u=t
  · subst hu
    rw [append_self] at hr
    rcases List.mem_append.mp hr with hold | hnew
    · exact h u r hold
    · rwa [List.mem_singleton.mp hnew]
  · rw [append_of_ne row hu] at hr
    exact h u r hr

/-- Rows of others leave an enrolment alone. -/
theorem Enrolled.append (h : Enrolled db subject) {t : Table} {row : Row t}
    (hrow : ¬Concerns subject t row) : Enrolled (append db t row) subject := by
  have hroles : ∃ role∈rolesOf (UserSteps.append db t row),role.name=roleUser ∧
      ((userRolesOf db).filter fun r => r.userId==subject && r.roleId==role.id).length=1 := by
    obtain ⟨role,hmem,hname,hcount⟩ := h.role
    refine ⟨role,?_,hname,hcount⟩
    by_cases ht : Table.roles=t
    · subst ht
      rw [rolesOf,append_self]
      exact List.mem_append_left _ hmem
    · rw [rolesOf,append_of_ne row ht]
      exact hmem
  cases t with
  | appUsers =>
    refine ⟨?_,by simpa using h.profile,by simpa using hroles,by simpa using h.audit⟩
    have hne : row.externalSubject≠subject.str := fun he => hrow (.inr he)
    simpa [hne] using h.user
  | userProfiles =>
    refine ⟨by simpa using h.user,?_,by simpa using hroles,by simpa using h.audit⟩
    have hne : row.userId≠subject := hrow
    simpa [hne] using h.profile
  | userRoles =>
    refine ⟨by simpa using h.user,by simpa using h.profile,?_,by simpa using h.audit⟩
    have hne : row.userId≠subject := hrow
    simpa [hne] using hroles
  | auditEvents =>
    refine ⟨by simpa using h.user,by simpa using h.profile,by simpa using hroles,?_⟩
    have hne : isBootstrap subject row=false := Bool.eq_false_iff.mpr hrow
    simpa [hne] using h.audit
  | roles =>
    exact ⟨by simpa using h.user,by simpa using h.profile,by simpa using hroles,
      by simpa using h.audit⟩
  | permissions =>
    exact ⟨by simpa using h.user,by simpa using h.profile,by simpa using hroles,
      by simpa using h.audit⟩
  | rolePermissions =>
    exact ⟨by simpa using h.user,by simpa using h.profile,by simpa using hroles,
      by simpa using h.audit⟩

/-- Tables in which every subject is enrolled or absent. -/
structure Regular (n : ℕ) (db : Tables) : Prop where
  /-- The seeds. -/
  seeded : Seeded n db
  /-- The subjects. -/
  subjects : ∀ subject,Absent db subject ∨ Enrolled db subject

/-- What a request keeps of every subject. -/
structure Keeps (db db' : Tables) (subject : UUID) : Prop where
  /-- Enrolments stay. -/
  enrolled : Enrolled db subject → Enrolled db' subject
  /-- Others stay absent. -/
  absent : Absent db subject → Absent db' subject

/-- An unchanged database keeps what concerns a subject. -/
theorem Keeps.refl (db : Tables) (subject : UUID) : Keeps db db subject := ⟨id,id⟩

/-- Keeping composes. -/
theorem Keeps.trans {db'' : Tables} (h : Keeps db db' subject) (h' : Keeps db' db'' subject) :
    Keeps db db'' subject :=
  ⟨fun he => h'.enrolled (h.enrolled he),fun ha => h'.absent (h.absent ha)⟩

/-- A row that does not concern the subject keeps what does. -/
theorem keeps_append {t : Table} {row : Row t} (hrow : ¬Concerns subject t row) :
    Keeps db (append db t row) subject := ⟨fun h => h.append hrow,fun h => h.append hrow⟩

/-- The profile update of a user keeps every subject. -/
theorem keeps_updatedTables {userId : UUID} {payload : UpdateProfileRequest} {event : AuditEvent}
    (hevent : event.eventType≠auditUserBootstrapped) :
    Keeps db (updatedTables db userId payload event) subject := by
  have hprofile : ∀ r : UserProfile,(if r.userId==userId then
      ProfileRepository.updated payload r else r).userId=r.userId := by
    intro r
    split <;> rfl
  have hput : Keeps db (put db .userProfiles ((profilesOf db).map fun r =>
      if r.userId==userId then ProfileRepository.updated payload r else r)) subject := by
    constructor
    · intro h
      refine ⟨by simpa using h.user,?_,by simpa using h.role,by simpa using h.audit⟩
      have hcount : ((profilesOf db).map fun r => if r.userId==userId then
          ProfileRepository.updated payload r else r).filter (fun r => r.userId==subject)=
            ((profilesOf db).filter fun r => r.userId==subject).map fun r =>
              if r.userId==userId then ProfileRepository.updated payload r else r := by
        rw [List.filter_map]
        refine congrArg _ (List.filter_congr fun r _ => ?_)
        rw [Function.comp_apply,hprofile]
      rw [profilesOf,put_self,hcount,List.length_map]
      exact h.profile
    · intro h t r hr
      by_cases ht : t=.userProfiles
      · subst ht
        rw [put_self] at hr
        obtain ⟨old,hold,rfl⟩ := List.mem_map.mp hr
        show (if old.userId==userId then ProfileRepository.updated payload old else old).userId≠
          subject
        rw [hprofile]
        exact h .userProfiles old hold
      · rw [put_of_ne _ ht] at hr
        exact h t r hr
  refine hput.trans (keeps_append ?_)
  show ¬(event.eventType==auditUserBootstrapped && event.targetUserId==some subject)=true
  simp [hevent]

/-- A new subject has no row before its bootstrap, and its only role is the
default one. -/
structure Enrolling (n : ℕ) (db : Tables) (subject : UUID) (ip ua : Option String)
    (db' : Tables) : Prop where
  /-- It is new. -/
  absent : Absent db subject
  /-- The tables after its bootstrap. -/
  tables : db'=append (append (created db subject) .userRoles ⟨subject,⟨n⟩⟩) .auditEvents
    (bootstrapEvent subject ip ua)
  /-- The audit row is accepted. -/
  audit : valid .auditEvents (bootstrapEvent subject ip ua)=true

/-- A bootstrap finds an enrolled subject or enrols a new one. -/
theorem Regular.bootstrap (h : Regular n db) {user : AppUser}
    (hb : Bootstrapped db subject ip ua user db') :
    user=⟨subject,subject.str,true⟩ ∧
      (Enrolled db subject ∧ db'=db ∨ Enrolling n db subject ip ua db') := by
  have hsubject := h.subjects subject
  cases hb with
  | known user hfound =>
    have henrolled : Enrolled db subject := by
      refine hsubject.resolve_left fun habsent => ?_
      have hmem : user∈(appUsersOf db).filter fun r => r.externalSubject==subject.str := by
        rw [hfound]
        exact List.mem_singleton_self _
      obtain ⟨hstored,hname⟩ := List.mem_filter.mp hmem
      exact habsent .appUsers user hstored (.inr (by simpa using hname))
    have hsame := henrolled.user
    rw [hfound] at hsame
    exact ⟨List.singleton_inj.mp hsame,.inl ⟨henrolled,rfl⟩⟩
  | fresh role db₁ hnone _ _ hrole hassigned haudit =>
    have habsent : Absent db subject := by
      refine hsubject.resolve_right fun henrolled => ?_
      have huser := henrolled.user
      rw [hnone] at huser
      cases huser
    have hdefault := h.seeded.default_role hrole
    have hlinks : userRolesOf (created db subject)=userRolesOf db := by simp [created]
    refine ⟨rfl,.inr ⟨habsent,?_,haudit.valid⟩⟩
    cases hassigned with
    | held hmem =>
      rw [hlinks] at hmem
      exact absurd rfl (habsent .userRoles _ hmem)
    | added _ => rw [hdefault]

/-- The new rows enrol the subject. -/
theorem Enrolling.enrolled (h : Enrolling n db subject ip ua db') (hseeded : Seeded n db) :
    Enrolled db' subject := by
  have husers : (appUsersOf db).filter (fun r => r.externalSubject==subject.str)=[] :=
    List.filter_eq_nil_iff.mpr fun r hr => by
      have hno := h.absent .appUsers r hr
      simp only [Concerns,not_or] at hno
      simpa using hno.2
  have hprofiles : (profilesOf db).filter (fun r => r.userId==subject)=[] :=
    List.filter_eq_nil_iff.mpr fun r hr => by
      have hno : r.userId≠subject := h.absent .userProfiles r hr
      simp [hno]
  have hlinks : (userRolesOf db).filter (fun r => r.userId==subject && r.roleId==⟨n⟩)=[] :=
    List.filter_eq_nil_iff.mpr fun r hr => by
      have hno : r.userId≠subject := h.absent .userRoles r hr
      simp [hno]
  have haudits : (auditEventsOf db).filter (isBootstrap subject)=[] :=
    List.filter_eq_nil_iff.mpr fun r hr => h.absent .auditEvents r hr
  rw [h.tables]
  refine ⟨?_,?_,⟨⟨⟨n⟩,roleUser,"Default user role"⟩,?_,rfl,?_⟩,?_⟩
  · simpa [created] using husers
  · simp [created,hprofiles]
  · have hroles := hseeded.roles
    simp [created,hroles,seedRoles]
  · simp [created,hlinks]
  · simp [created,haudits,isBootstrap,bootstrapEvent]

/-- Others keep their rows. -/
theorem Enrolling.keeps (h : Enrolling n db subject ip ua db') (hother : other≠subject) :
    Keeps db db' other := by
  have hne : subject≠other := hother.symm
  have hstr : subject.str≠other.str := fun he => hne (UUID.str_injective he)
  rw [h.tables]
  refine (keeps_append ?_).trans ((keeps_append ?_).trans
    ((keeps_append ?_).trans (keeps_append ?_)))
  · simp [Concerns,hne,hstr]
  · simp [Concerns,hne]
  · simp [Concerns,hne]
  · simp [Concerns,isBootstrap,bootstrapEvent,hne]

/-- Enrolling leaves the seeded roles and permissions. -/
theorem Enrolling.seeded (h : Enrolling n db subject ip ua db') (hseeded : Seeded n db) :
    Seeded n db' := by
  have hcreated : Seeded n (created db subject) := (hseeded.append (by decide)).append (by decide)
  rw [h.tables]
  exact (hcreated.append (by decide)).append (by decide)

/-- After a bootstrap the tables are regular and the subject is enrolled. -/
theorem Regular.bootstrapped (h : Regular n db) {user : AppUser}
    (hb : Bootstrapped db subject ip ua user db') :
    Regular n db' ∧ Enrolled db' subject ∧ ∀ s,Enrolled db s → Enrolled db' s := by
  obtain ⟨_,⟨henrolled,rfl⟩ | henrolling⟩ := h.bootstrap hb
  · exact ⟨h,henrolled,fun _ hs => hs⟩
  · have hnew := henrolling.enrolled h.seeded
    refine ⟨⟨henrolling.seeded h.seeded,fun s => ?_⟩,hnew,fun s hs => ?_⟩
    · by_cases he : s=subject
      · subst he
        exact .inr hnew
      · have hkeeps := henrolling.keeps he
        exact (h.subjects s).imp hkeeps.absent hkeeps.enrolled
    · by_cases he : s=subject
      · subst he
        exact hnew
      · exact (henrolling.keeps he).enrolled hs

/-- A grant to a stored user keeps the tables regular. -/
theorem Regular.assigned (h : Regular n db) {target roleId : UUID}
    (htarget : ∃ user∈appUsersOf db,user.id=target) (ha : Assigned db target roleId db') :
    Regular n db' ∧ ∀ s,Enrolled db s → Enrolled db' s := by
  cases ha with
  | held _ => exact ⟨h,fun _ hs => hs⟩
  | added hnew =>
    have hseeded : Seeded n (append db .userRoles ⟨target,roleId⟩) := h.seeded.append (by decide)
    have henrolled : Enrolled db target := by
      refine (h.subjects target).resolve_left fun habsent => ?_
      obtain ⟨user,huser,hid⟩ := htarget
      exact habsent .appUsers user huser (.inl hid)
    have hafter : Enrolled (append db .userRoles ⟨target,roleId⟩) target := by
      refine ⟨by simpa using henrolled.user,by simpa using henrolled.profile,?_,
        by simpa using henrolled.audit⟩
      obtain ⟨role,hrole,hname,hcount⟩ := henrolled.role
      -- the default role is held already, so the new link is another one
      have hother : roleId≠role.id := by
        rintro rfl
        have hpos : 0<((userRolesOf db).filter fun r =>
            r.userId==target && r.roleId==role.id).length := by omega
        obtain ⟨link,hlink⟩ := List.exists_mem_of_length_pos hpos
        obtain ⟨hmem,hq⟩ := List.mem_filter.mp hlink
        simp only [Bool.and_eq_true,beq_iff_eq] at hq
        obtain ⟨rfl,hrow⟩ := hq
        rw [←hrow] at hnew
        exact hnew hmem
      refine ⟨role,by simpa using hrole,hname,?_⟩
      simpa [hother] using hcount
    have hkeeps : ∀ s,s≠target → Keeps db (append db .userRoles ⟨target,roleId⟩) s :=
      fun s hs => keeps_append (Ne.symm hs)
    refine ⟨⟨hseeded,fun s => ?_⟩,fun s hs => ?_⟩
    · by_cases he : s=target
      · subst he
        exact .inr hafter
      · exact (h.subjects s).imp (hkeeps s he).absent (hkeeps s he).enrolled
    · by_cases he : s=target
      · subst he
        exact hafter
      · exact (hkeeps s he).enrolled hs

end Enrolments

section Theorem

variable {n : ℕ} {db db' : Tables} {s : ServerState} {client : ClientRequest}
  {claims : AccessTokenClaims} {context : UserContext}

/-- After the context of a request its subject is enrolled, and everybody who
was still is. -/
theorem Regular.contextual (h : Regular n db) (hc : Contextual client db context claims db') :
    Regular n db' ∧ Enrolled db' claims.sub ∧ ∀ subject,Enrolled db subject → Enrolled db' subject :=
  h.bootstrapped hc.user

/-- A profile update keeps the tables regular. -/
theorem Regular.seed_update (h : Regular n db) {userId : UUID} {payload : UpdateProfileRequest}
    {event : AuditEvent} (hevent : event.eventType≠auditUserBootstrapped) :
    Regular n (updatedTables db userId payload event) := by
  refine ⟨(h.seeded.put (by decide)).append (by decide),fun subject => ?_⟩
  have hkeeps : Keeps db (updatedTables db userId payload event) subject :=
    keeps_updatedTables hevent
  exact (h.subjects subject).imp hkeeps.absent hkeeps.enrolled

/-- An audit row of another type keeps the tables regular. -/
theorem Regular.audit (h : Regular n db) {event : AuditEvent}
    (hevent : event.eventType≠auditUserBootstrapped) :
    Regular n (append db .auditEvents event) ∧
      ∀ subject,Enrolled db subject → Enrolled (append db .auditEvents event) subject := by
  have hkeeps : ∀ subject,Keeps db (append db .auditEvents event) subject := fun subject => by
    refine keeps_append ?_
    show ¬(event.eventType==auditUserBootstrapped && event.targetUserId==some subject)=true
    simp [hevent]
  refine ⟨⟨h.seeded.append (by decide),fun subject => ?_⟩,fun subject => (hkeeps subject).enrolled⟩
  exact (h.subjects subject).imp (hkeeps subject).absent (hkeeps subject).enrolled

/-- A profile update is not logged as a first contact. -/
theorem updateEvent_ne {userId : UUID} {payload : UpdateProfileRequest} {ip ua : Option String} :
    (updateEvent userId payload ip ua).eventType≠auditUserBootstrapped := by
  show auditProfileUpdated≠auditUserBootstrapped
  decide

/-- An assigned role is not logged as a first contact. -/
theorem assignEvent_ne {actor target : UUID} {roleName : String} {ip ua : Option String} :
    (assignEvent actor target roleName ip ua).eventType≠auditUserBootstrapped := by
  show auditRoleAssigned≠auditUserBootstrapped
  decide

/-- Every request keeps the tables regular and its subjects enrolled. -/
theorem Regular.answered (h : Regular n db) {o : Except Failure Response}
    (ha : Answered client db o db') :
    Regular n db' ∧ ∀ subject,Enrolled db subject → Enrolled db' subject := by
  cases ha with
  | failed e => exact ⟨h,fun _ hs => hs⟩
  | read response context claims db₁ hc _ => exact ⟨h,fun _ hs => hs⟩
  | updated response context claims payload db₁ _ hc =>
    obtain ⟨hregular,_,hkept⟩ := h.contextual hc
    exact ⟨hregular.seed_update updateEvent_ne,fun subject hs =>
      (keeps_updatedTables updateEvent_ne).enrolled (hkept subject hs)⟩
  | granted response context claims target payload _ hg =>
    obtain ⟨db₁,db₂,role,hc,_,huser,_,hassigned,rfl⟩ := hg.tables
    obtain ⟨hregular,_,hkept⟩ := h.contextual hc
    obtain ⟨hregular₂,hkept₂⟩ := hregular.assigned huser hassigned
    obtain ⟨hregular₃,hkept₃⟩ := hregular₂.audit assignEvent_ne
    exact ⟨hregular₃,fun subject hs => hkept₃ subject (hkept₂ subject (hkept subject hs))⟩

/-- The request is the first contact of its subject. -/
def FirstContact (s : ServerState) (client : ClientRequest) : Prop :=
  ∃ claims,client.authorization=.ok claims ∧ client.sessionRevoked=false ∧
    ∀ r∈appUsersOf s.db,r.externalSubject≠claims.sub.str

/-- Requests that answer without a commit of their own and need nothing a new
user lacks. -/
def AnswersOnly : Request → Prop
  | .me | .myProfile | .myRoles | .myPermissions => True
  | _ => False

/-- The audit table accepts the address and the program of the client. -/
def Recordable (client : ClientRequest) : Prop :=
  (fits 64 (some client.ipAddress) && fits 512 client.userAgent)=true

/-- The first contact is not made by a request that answers only. -/
def Lasting (s : ServerState) : Input → Prop
  | .call client =>
    ¬(FirstContact s client ∧ AnswersOnly client.request ∧ Recordable client)
  | .restart => True

/-- A new user has nothing but the permissions of the default role. -/
theorem Enrolling.permissions {subject : UUID} {ip ua : Option String}
    (h : Enrolling n db subject ip ua db') (hseeded : Seeded n db) {name : String}
    (hname : name∈permissionNamesForUser db' subject) :
    name∈[permissionProfileReadSelf,permissionProfileWriteSelf] := by
  rcases (h.seeded hseeded).mem_permissionNamesForUser.mp hname with ⟨_,hself⟩ | ⟨hlink,_⟩
  · exact hself
  · have hlinks : userRolesOf db'=userRolesOf db++[⟨subject,⟨n⟩⟩] := by
      rw [h.tables]
      simp [created]
    rw [hlinks] at hlink
    rcases List.mem_append.mp hlink with hold | hnew
    · exact absurd rfl (h.absent .userRoles _ hold)
    · have hrole := congrArg (fun r => r.roleId.int) (List.mem_singleton.mp hnew)
      exact absurd hrole (Nat.succ_ne_self n)

/-- A lasting request that succeeds leaves its subject enrolled. -/
theorem Regular.succeeded (h : Regular n s.db) (hl : Lasting s (.call client))
    (hauthorization : client.authorization=.ok claims) {response : Response}
    (hok : (s.serve client).1=.ok response) :
    Enrolled (s.next (.call client)).db claims.sub := by
  have ha := UserSteps.answered s client
  rw [hok] at ha
  generalize (s.next (.call client)).db=db' at ha ⊢
  have hclaims : ∀ {claims' : AccessTokenClaims},client.authorization=.ok claims' →
      claims'=claims := fun hc => Except.ok.inj (hc.symm.trans hauthorization)
  cases ha with
  | read _ context claims' db₁ hc hreadable =>
    obtain rfl := hclaims hc.authorization
    rcases (h.bootstrap hc.user).2 with ⟨henrolled,_⟩ | henrolling
    · exact henrolled
    · have hrecordable : Recordable client := by
        have haudit := henrolling.audit
        simp only [valid,bootstrapEvent,Bool.and_eq_true] at haudit
        rw [Recordable,Bool.and_eq_true]
        exact ⟨haudit.1.2,haudit.2⟩
      refine absurd ⟨⟨claims',hc.authorization,hc.sessionActive,?_⟩,?_,hrecordable⟩ hl
      · intro r hr hname
        exact henrolling.absent .appUsers r hr (.inr hname)
      · cases hrequest : client.request with
        | getUser userId =>
          rw [hrequest] at hreadable
          have hread : permissionUsersRead∈context.permissions := hreadable
          rw [hc.permissions,(h.bootstrap hc.user).1] at hread
          have hself := henrolling.permissions h.seeded hread
          simp [permissionUsersRead,permissionProfileReadSelf,
            permissionProfileWriteSelf] at hself
        | updateProfile payload =>
          rw [hrequest] at hreadable
          exact hreadable.elim
        | assignRole userId payload =>
          rw [hrequest] at hreadable
          exact hreadable.elim
        | _ => trivial
  | updated _ context claims' payload db₁ _ hc =>
    obtain rfl := hclaims hc.authorization
    obtain ⟨_,henrolled,_⟩ := h.contextual hc
    exact (keeps_updatedTables updateEvent_ne).enrolled henrolled
  | granted _ context claims' target payload _ hg =>
    obtain ⟨db₁,db₂,role,hc,_,huser,_,hassigned,htables⟩ := hg.tables
    obtain rfl := hclaims hc.authorization
    obtain ⟨hregular,henrolled,_⟩ := h.contextual hc
    obtain ⟨hregular₂,hkept₂⟩ := hregular.assigned huser hassigned
    rw [htables]
    exact (hregular₂.audit assignEvent_ne).2 claims'.sub (hkept₂ _ henrolled)

/-- A fresh service is regular. -/
theorem regular_freshService (n : ℕ) : Regular n (freshService n).db := by
  rw [freshService_db]
  refine ⟨seeded_seededTables n,fun subject => .inl fun t row hrow => ?_⟩
  cases t with
  | roles => exact id
  | permissions => exact id
  | rolePermissions => exact id
  | appUsers => exact absurd hrow (by simp [seededTables,emptyTables])
  | userProfiles => exact absurd hrow (by simp [seededTables,emptyTables])
  | userRoles => exact absurd hrow (by simp [seededTables,emptyTables])
  | auditEvents => exact absurd hrow (by simp [seededTables,emptyTables])

/-- A successful request authenticated as the subject. -/
def Contacted (subject : UUID) (entry : ServerState×Input) : Prop :=
  ∃ client claims response,entry.2=.call client ∧ client.authorization=.ok claims ∧
    claims.sub=subject ∧ (entry.1.serve client).1=.ok response

/-- First contacts last: in every run whose first contacts are not made by
requests that answer only, a subject of a successful request has exactly one
committed user, profile, default role and audit row of its bootstrap in every
later state. -/
theorem first_contacts_last {draws : ℕ} {trace : Trace}
    (h : Runs Lasting (freshService draws) trace s) {subject : UUID}
    (hcontacted : ∃ entry∈trace,Contacted subject entry) : Enrolled s.db subject := by
  have hrun : Regular draws s.db ∧
      ∀ entry∈trace,∀ subject,Contacted subject entry → Enrolled s.db subject := by
    refine h.invariant (fun trace s => Regular draws s.db ∧
      ∀ entry∈trace,∀ subject,Contacted subject entry → Enrolled s.db subject) ?_ ?_
    · exact ⟨regular_freshService draws,fun _ => nofun⟩
    · rintro trace s input ⟨hregular,hcontacts⟩ hl
      cases input with
      | restart =>
        rw [restart_seeded hregular.seeded]
        refine ⟨hregular,fun entry hentry subject hc => ?_⟩
        rcases List.mem_cons.mp hentry with rfl | hold
        · obtain ⟨_,_,_,hcall,_⟩ := hc
          cases hcall
        · exact hcontacts entry hold subject hc
      | call client =>
        obtain ⟨hnext,hkept⟩ := hregular.answered (UserSteps.answered s client)
        refine ⟨hnext,fun entry hentry subject hc => ?_⟩
        rcases List.mem_cons.mp hentry with rfl | hold
        · obtain ⟨client',claims,response,hcall,hauthorization,rfl,hok⟩ := hc
          obtain rfl := Input.call.inj hcall
          exact hregular.succeeded hl hauthorization hok
        · exact hkept subject (hcontacts entry hold subject hc)
  obtain ⟨entry,hentry,hc⟩ := hcontacted
  exact hrun.2 entry hentry subject hc

/-- A client of a new subject. -/
def sampleClient (request : Request) : ClientRequest :=
  ⟨request,none,.ok ⟨⟨77⟩,⟨1⟩⟩,false,"198.51.100.7",some "browser"⟩

/-- A profile in the default locale. -/
def samplePayload : UpdateProfileRequest :=
  ⟨some "Ada","en-US","UTC",none,by rintro _ ⟨⟩; decide,by decide,by decide,by simp⟩

/-- A successful first request contacts its subject. -/
theorem contacted_sampleClient {request : Request}
    (hok : ((freshService 5).serve (sampleClient request)).1.toBool=true) :
    Contacted ⟨77⟩ (freshService 5,.call (sampleClient request)) := by
  cases hresponse : ((freshService 5).serve (sampleClient request)).1 with
  | ok response => exact ⟨sampleClient request,⟨⟨77⟩,⟨1⟩⟩,response,rfl,rfl,rfl,hresponse⟩
  | error e =>
    rw [hresponse] at hok
    cases hok

/-- A first contact by `PATCH /profiles/me` lasts. -/
theorem first_contacts_last_update :
    Enrolled ((freshService 5).next (.call (sampleClient (.updateProfile (some samplePayload))))).db
      ⟨77⟩ := by
  have hok : ((freshService 5).serve
      (sampleClient (.updateProfile (some samplePayload)))).1.toBool=true := by
    decide +kernel
  have hrun : Runs Lasting (freshService 5)
      [(freshService 5,.call (sampleClient (.updateProfile (some samplePayload))))]
      ((freshService 5).next (.call (sampleClient (.updateProfile (some samplePayload))))) :=
    .step _ .refl fun h => h.2.1
  exact first_contacts_last hrun ⟨_,List.mem_singleton_self _,contacted_sampleClient hok⟩

/-- A first contact by `GET /users/me` succeeds and is lost. -/
theorem read_loses_first_contact : ∃ trace s subject,
    Runs (fun _ _ => True) (freshService 5) trace s ∧
      (∃ entry∈trace,Contacted subject entry) ∧ ¬Enrolled s.db subject := by
  have hok : ((freshService 5).serve (sampleClient .me)).1.toBool=true := by
    decide +kernel
  have hlost : appUsersOf ((freshService 5).next (.call (sampleClient .me))).db=[] := by
    decide +kernel
  have hrun : Runs (fun _ _ => True) (freshService 5) [(freshService 5,.call (sampleClient .me))]
      ((freshService 5).next (.call (sampleClient .me))) := .step _ .refl trivial
  refine ⟨_,_,⟨77⟩,hrun,⟨_,List.mem_singleton_self _,contacted_sampleClient hok⟩,fun henrolled => ?_⟩
  have huser := henrolled.user
  rw [hlost] at huser
  cases huser

end Theorem

end BackendPlatform.FirstContacts
