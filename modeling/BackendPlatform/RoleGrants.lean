import BackendPlatform.UserSteps

/-!
# Grants of roles

Permissions are the join of seeds and role links. Links come from the first
contact of a subject, which grants the default role only, and from assignments
by users who hold the permission to assign. So whoever is privileged was an
administrator at the start or was made one by a user who could, and every
assignment leaves its audit row.
-/

set_option autoImplicit false

namespace BackendPlatform.RoleGrants

open ProgramTrees TransactionalTables
open AuthRecords (UUID)
open UserRecords UserRequests UserSteps

section Links

variable {n : ℕ} {db db' : Tables} {client : ClientRequest} {claims : AccessTokenClaims}
  {context : UserContext} {target : UUID} {payload : AssignRoleRequest}

/-- The user a subject acts as; a new one gets the subject as its key. -/
def actorOf (db : Tables) (subject : UUID) : UUID :=
  (((appUsersOf db).find? fun r => r.externalSubject==subject.str).map (·.id)).getD subject

/-- The user of the context is the one the subject acts as. -/
theorem actorOf_bootstrapped {subject : UUID} {ip ua : Option String} {user : AppUser}
    (h : Bootstrapped db subject ip ua user db') : user.id=actorOf db subject := by
  have hfind : (appUsersOf db).find? (fun r => r.externalSubject==subject.str)=
      ((appUsersOf db).filter fun r => r.externalSubject==subject.str).head? :=
    List.head?_filter.symm
  unfold actorOf
  rw [hfind]
  cases h with
  | known _ hfound =>
    rw [hfound]
    rfl
  | fresh role db₁ hnone =>
    rw [hnone]
    rfl

/-- What an uncommitted part of a request keeps: the seeds, the audit rows and
all links but new ones of the default role. -/
structure Unprivileged (n : ℕ) (db db' : Tables) : Prop where
  /-- The seeds. -/
  seeded : Seeded n db'
  /-- New links lead to the default role. -/
  links : ∀ link∈userRolesOf db',link∈userRolesOf db ∨ link.roleId=⟨n⟩
  /-- Audit rows stay. -/
  audits : ∃ added,auditEventsOf db'=auditEventsOf db++added

/-- A bootstrap grants the default role only. -/
theorem unprivileged_bootstrapped (hseeded : Seeded n db) {subject : UUID}
    {ip ua : Option String} {user : AppUser} (h : Bootstrapped db subject ip ua user db') :
    Unprivileged n db db' := by
  cases h with
  | known _ _ => exact ⟨hseeded,fun _ hlink => .inl hlink,[],(List.append_nil _).symm⟩
  | fresh role db₁ _ _ _ hrole hassigned _ =>
    have hdefault := hseeded.default_role hrole
    have hcreated : Seeded n (created db subject) :=
      (hseeded.append (by decide)).append (by decide)
    have hlinks : userRolesOf (created db subject)=userRolesOf db := by simp [created]
    have haudits : auditEventsOf (created db subject)=auditEventsOf db := by simp [created]
    cases hassigned with
    | held _ =>
      refine ⟨hcreated.append (by decide),fun link hlink => .inl ?_,
        [bootstrapEvent subject ip ua],?_⟩
      · rw [←hlinks]
        simpa using hlink
      · rw [auditEventsOf,append_self,←haudits]
    | added _ =>
      refine ⟨(hcreated.append (by decide)).append (by decide),fun link hlink => ?_,
        [bootstrapEvent subject ip ua],?_⟩
      · have hmem : link∈userRolesOf db++[⟨subject,role.id⟩] := by
          rw [←hlinks]
          simpa using hlink
        rcases List.mem_append.mp hmem with hold | hnew
        · exact .inl hold
        · obtain rfl := List.mem_singleton.mp hnew
          exact .inr (by rw [hdefault])
      · rw [auditEventsOf,append_self,←haudits]
        simp

/-- A user with a privilege holds the administrative role. -/
theorem admin_of_privilege (hseeded : Seeded n db) {userId : UUID} {name : String}
    (hname : name∉[permissionProfileReadSelf,permissionProfileWriteSelf])
    (h : name∈permissionNamesForUser db userId) :
    UserRole.mk userId ⟨n+1⟩∈userRolesOf db := by
  rcases hseeded.mem_permissionNamesForUser.mp h with ⟨_,hself⟩ | ⟨hlink,_⟩
  · exact absurd hself hname
  · exact hlink

/-- An administrator holds the permission to assign roles. -/
theorem assign_of_admin (hseeded : Seeded n db) {userId : UUID}
    (h : UserRole.mk userId ⟨n+1⟩∈userRolesOf db) :
    permissionRolesAssign∈permissionNamesForUser db userId :=
  hseeded.mem_permissionNamesForUser.mpr (.inr ⟨h,by simp⟩)

/-- That permission is not among those of the default role. -/
theorem rolesAssign_privilege :
    permissionRolesAssign∉[permissionProfileReadSelf,permissionProfileWriteSelf] := by
  decide

/-- An assignment by a user who could assign before the request. -/
structure Authorised (n : ℕ) (db : Tables) (actor target : UUID) (roleName : String)
    (db' : Tables) : Prop where
  /-- The permission of the acting user. -/
  permission : permissionRolesAssign∈permissionNamesForUser db actor
  /-- The seeds stay. -/
  seeded : Seeded n db'
  /-- New links lead to the default role, or are the assigned one. -/
  links : ∀ link∈userRolesOf db',link∈userRolesOf db ∨ link.roleId=⟨n⟩ ∨
    link.userId=target ∧ ∃ role∈seedRoles n,role.name=roleName ∧ link.roleId=role.id
  /-- The audit row of the assignment is added. -/
  audits : ∃ added ip ua,auditEventsOf db'=
    auditEventsOf db++added++[assignEvent actor target roleName ip ua]

/-- A granted role was asked for by somebody with the permission. -/
theorem authorised_granted (hseeded : Seeded n db)
    (h : Granted client db context claims target payload db') :
    Authorised n db (actorOf db claims.sub) target payload.roleName db' := by
  obtain ⟨db₁,db₂,role,hcontext,hpermission,_,hrole,hassigned,rfl⟩ := h.tables
  have hactor := actorOf_bootstrapped hcontext.user
  obtain ⟨hseeded₁,hlinks₁,added,haudits₁⟩ := unprivileged_bootstrapped hseeded hcontext.user
  rw [hactor]
  have hadmin : UserRole.mk (actorOf db claims.sub) ⟨n+1⟩∈userRolesOf db := by
    have hlink : UserRole.mk (actorOf db claims.sub) ⟨n+1⟩∈userRolesOf db₁ := by
      rw [hcontext.permissions,hactor] at hpermission
      exact admin_of_privilege hseeded₁ rolesAssign_privilege hpermission
    -- the request itself can only have linked the default role
    refine (hlinks₁ _ hlink).resolve_right fun hroleId => ?_
    exact Nat.succ_ne_self n (congrArg UUID.int hroleId)
  have hnamed := hseeded₁.role_of_name hrole
  have hpermitted := assign_of_admin hseeded hadmin
  cases hassigned with
  | held _ =>
    refine ⟨hpermitted,hseeded₁.append (by decide),fun link hlink => ?_,added,some client.ipAddress,
      client.userAgent,?_⟩
    · have hmem : link∈userRolesOf db₁ := by simpa using hlink
      exact (hlinks₁ link hmem).imp_right .inl
    · rw [auditEventsOf,append_self,←haudits₁]
  | added _ =>
    refine ⟨hpermitted,(hseeded₁.append (by decide)).append (by decide),fun link hlink => ?_,
      added,some client.ipAddress,client.userAgent,?_⟩
    · have hmem : link∈userRolesOf db₁++[⟨target,role.id⟩] := by simpa using hlink
      rcases List.mem_append.mp hmem with hold | hnew
      · exact (hlinks₁ link hold).imp_right .inl
      · obtain rfl := List.mem_singleton.mp hnew
        exact .inr (.inr ⟨rfl,role,hnamed.1,hnamed.2,rfl⟩)
    · rw [auditEventsOf,append_self,←haudits₁]
      simp

end Links

section Theorem

variable {n : ℕ} {start s : ServerState} {trace : Trace} {client : ClientRequest}
  {entry : ServerState×Input} {actor target : UUID} {roleName : String}

/-- A committed assignment: an acting user gives a role to another user. -/
def Grants (entry : ServerState×Input) (actor target : UUID) (roleName : String) : Prop :=
  ∃ client claims payload response,entry.2=.call client ∧
    client.request=.assignRole (some target) (some payload) ∧ client.authorization=.ok claims ∧
    (entry.1.serve client).1=.ok response ∧ actor=actorOf entry.1.db claims.sub ∧
    roleName=payload.roleName

/-- A user holds a role. -/
def Holds (db : Tables) (userId : UUID) (roleName : String) : Prop :=
  ∃ role∈rolesOf db,role.name=roleName ∧ UserRole.mk userId role.id∈userRolesOf db

/-- A user was made an administrator by one who could assign roles. -/
def Promoted (entry : ServerState×Input) (userId : UUID) : Prop :=
  ∃ actor,Grants entry actor userId roleAdmin ∧
    permissionRolesAssign∈permissionNamesForUser entry.1.db actor ∧
    Holds (entry.1.next entry.2).db userId roleAdmin

/-- The audit row of an assignment. -/
def Names (actor target : UUID) (roleName : String) (event : AuditEvent) : Prop :=
  event.eventType=auditRoleAssigned ∧ event.outcome="success" ∧
    event.actorUserId=some actor ∧ event.targetUserId=some target ∧
    event.payload=[("role_name",.str roleName)]

/-- An entry of a run added an audit row that is still there. -/
def Audited (entry : ServerState×Input) (db : Tables) (actor target : UUID) (roleName : String) :
    Prop :=
  ∃ added later,auditEventsOf (entry.1.next entry.2).db=auditEventsOf entry.1.db++added ∧
    auditEventsOf db=auditEventsOf (entry.1.next entry.2).db++later ∧
    ∃ event∈added,Names actor target roleName event

/-- The links to the administrative role are those of administrators. -/
theorem holds_admin {db : Tables} (hseeded : Seeded n db) {userId : UUID} :
    Holds db userId roleAdmin ↔ UserRole.mk userId ⟨n+1⟩∈userRolesOf db := by
  unfold Holds
  rw [hseeded.roles]
  constructor
  · rintro ⟨role,hrole,hname,hlink⟩
    rcases List.mem_cons.mp hrole with rfl | hadmin
    · have hother : roleUser≠roleAdmin := by
        decide
      exact absurd hname hother
    · obtain rfl := List.mem_singleton.mp hadmin
      exact hlink
  · intro hlink
    exact ⟨⟨⟨n+1⟩,roleAdmin,"Administrative role"⟩,by simp [seedRoles],rfl,hlink⟩

/-- A role of the administrators' key has their name. -/
theorem name_of_admin {role : Role} (hrole : role∈seedRoles n) (hid : role.id=⟨n+1⟩) :
    role.name=roleAdmin := by
  rcases List.mem_cons.mp hrole with rfl | hadmin
  · exact absurd (congrArg UUID.int hid) (Nat.succ_ne_self n).symm
  · obtain rfl := List.mem_singleton.mp hadmin
    rfl

/-- The name of a role is not removed from the audit payload. -/
theorem sanitizePayload_roleName (roleName : String) :
    AuditService.sanitizePayload [("role_name",.str roleName)]=[("role_name",.str roleName)] := by
  have hkept : "role_name".toLower∉AuditService.sensitiveFields := by
    decide +kernel
  simp [AuditService.sanitizePayload,hkept]

/-- A committed assignment was authorised. -/
theorem Grants.authorised (hseeded : Seeded n s.db)
    (h : Grants (s,.call client) actor target roleName) :
    Authorised n s.db actor target roleName (s.next (.call client)).db := by
  obtain ⟨client',claims,payload,response,hcall,hrequest,hauthorization,hok,rfl,rfl⟩ := h
  obtain rfl := Input.call.inj hcall
  have ha := answered s client
  rw [show (s.serve client).1=.ok response from hok] at ha
  generalize (s.next (.call client)).db=db' at ha ⊢
  cases ha with
  | read _ context claims' db₁ _ hreadable =>
    rw [hrequest] at hreadable
    exact hreadable.elim
  | updated _ context claims' payload' db₁ hupdate _ =>
    rw [hrequest] at hupdate
    cases hupdate
  | granted _ context claims' target' payload' _ hgranted =>
    have hsame := hrequest.symm.trans hgranted.request
    injection hsame with htarget hpayload
    obtain rfl := Option.some.inj htarget
    obtain rfl := Option.some.inj hpayload
    obtain ⟨_,_,_,hcontext,_⟩ := hgranted.tables
    obtain rfl := Except.ok.inj (hauthorization.symm.trans hcontext.authorization)
    exact authorised_granted hseeded hgranted

/-- What one request does: no more than the default role and new audit rows, or
an authorised assignment. -/
theorem request_step (hseeded : Seeded n s.db) :
    Unprivileged n s.db (s.next (.call client)).db ∨
      ∃ actor target roleName,Grants (s,.call client) actor target roleName ∧
        Authorised n s.db actor target roleName (s.next (.call client)).db := by
  have hnothing : Unprivileged n s.db s.db :=
    ⟨hseeded,fun _ hlink => .inl hlink,[],(List.append_nil _).symm⟩
  have ha := answered s client
  have hgrants : ∀ {response : Response} {context : UserContext} {claims : AccessTokenClaims}
      {target : UUID} {payload : AssignRoleRequest} {db' : Tables},
      (s.serve client).1=.ok response → Granted client s.db context claims target payload db' →
        Grants (s,.call client) (actorOf s.db claims.sub) target payload.roleName := by
    intro response context claims target payload db' hok hgranted
    obtain ⟨_,_,_,hcontext,_⟩ := hgranted.tables
    exact ⟨client,claims,payload,response,rfl,hgranted.request,hcontext.authorization,hok,rfl,rfl⟩
  generalize (s.next (.call client)).db=db' at ha ⊢
  generalize (s.serve client).1=o at ha hgrants
  cases ha with
  | failed e => exact .inl hnothing
  | read response context claims db₁ _ _ => exact .inl hnothing
  | updated response context claims payload db₁ _ hcontext =>
    obtain ⟨hseeded₁,hlinks,added,haudits⟩ := unprivileged_bootstrapped hseeded hcontext.user
    refine .inl ⟨(hseeded₁.put (by decide)).append (by decide),fun link hlink => ?_,
      added++[updateEvent context.user.id payload (some client.ipAddress) client.userAgent],?_⟩
    · exact hlinks link (by simpa [updatedTables] using hlink)
    · rw [←List.append_assoc,←haudits]
      simp [updatedTables]
  | granted response context claims target payload _ hgranted =>
    exact .inr ⟨_,target,_,hgrants rfl hgranted,authorised_granted hseeded hgranted⟩

/-- What holds at every point of a run. -/
structure Tracked (n : ℕ) (start : ServerState) (trace : Trace) (s : ServerState) : Prop where
  /-- The seeds. -/
  seeded : Seeded n s.db
  /-- Where the administrators come from. -/
  administrators : ∀ userId,UserRole.mk userId ⟨n+1⟩∈userRolesOf s.db →
    UserRole.mk userId ⟨n+1⟩∈userRolesOf start.db ∨ ∃ entry∈trace,Promoted entry userId
  /-- Without administrators there will be none. -/
  nobody : (∀ userId,UserRole.mk userId ⟨n+1⟩∉userRolesOf start.db) →
    ∀ userId,UserRole.mk userId ⟨n+1⟩∉userRolesOf s.db
  /-- Every assignment is audited. -/
  audited : ∀ entry∈trace,∀ actor target roleName,Grants entry actor target roleName →
    Audited entry s.db actor target roleName

/-- Later audit rows leave earlier ones in place. -/
theorem Audited.later {db db' : Tables} (h : Audited entry db actor target roleName)
    {added : List AuditEvent} (hadded : auditEventsOf db'=auditEventsOf db++added) :
    Audited entry db' actor target roleName := by
  obtain ⟨own,later,hown,hlater,hevent⟩ := h
  refine ⟨own,later++added,hown,?_,hevent⟩
  rw [hadded,hlater,List.append_assoc]

/-- A restart keeps the trace tracked. -/
theorem Tracked.restart (h : Tracked n start trace s) :
    Tracked n start ((s,.restart)::trace) (s.next .restart) := by
  rw [restart_seeded h.seeded]
  refine ⟨h.seeded,fun userId hlink => ?_,h.nobody,fun entry hentry actor target roleName hg => ?_⟩
  · refine (h.administrators userId hlink).imp_right ?_
    rintro ⟨entry,hentry,hpromoted⟩
    exact ⟨entry,List.mem_cons_of_mem _ hentry,hpromoted⟩
  · rcases List.mem_cons.mp hentry with rfl | hold
    · obtain ⟨_,_,_,_,hcall,_⟩ := hg
      cases hcall
    · exact h.audited entry hold actor target roleName hg

/-- A call keeps the trace tracked. -/
theorem Tracked.call (h : Tracked n start trace s) :
    Tracked n start ((s,.call client)::trace) (s.next (.call client)) := by
  have hseeded' : Seeded n (s.next (.call client)).db := by
    rcases request_step h.seeded with hplain | ⟨_,_,_,_,hauthorised⟩
    · exact hplain.seeded
    · exact hauthorised.seeded
  -- a new administrator is the target of an authorised assignment
  have hnew : ∀ userId,UserRole.mk userId ⟨n+1⟩∈userRolesOf (s.next (.call client)).db →
      UserRole.mk userId ⟨n+1⟩∈userRolesOf s.db ∨ Promoted (s,.call client) userId := by
    intro userId hlink
    have hdefault : (⟨n+1⟩ : UUID)≠⟨n⟩ := fun he =>
      Nat.succ_ne_self n (congrArg UUID.int he)
    rcases request_step h.seeded with
      hplain | ⟨actor,target,roleName,hg,hauthorised⟩
    · exact .inl ((hplain.links _ hlink).resolve_right hdefault)
    · rcases hauthorised.links _ hlink with hold | hrole | ⟨htarget,role,hrole,hname,hid⟩
      · exact .inl hold
      · exact absurd hrole hdefault
      · have hadmin : roleName=roleAdmin := hname.symm.trans (name_of_admin hrole hid.symm)
        obtain rfl : userId=target := htarget
        rw [hadmin] at hg
        exact .inr ⟨actor,hg,hauthorised.permission,(holds_admin hseeded').mpr hlink⟩
  have haudits : ∃ added,auditEventsOf (s.next (.call client)).db=auditEventsOf s.db++added := by
    rcases request_step h.seeded with hplain | ⟨_,_,_,_,hauthorised⟩
    · exact hplain.audits
    · obtain ⟨added,ip,ua,hadded⟩ := hauthorised.audits
      exact ⟨_,by rw [hadded,List.append_assoc]⟩
  refine ⟨hseeded',fun userId hlink => ?_,fun hstart userId hlink => ?_,
    fun entry hentry actor target roleName hg => ?_⟩
  · rcases hnew userId hlink with hold | hpromoted
    · refine (h.administrators userId hold).imp_right ?_
      rintro ⟨entry,hentry,hpromoted⟩
      exact ⟨entry,List.mem_cons_of_mem _ hentry,hpromoted⟩
    · exact .inr ⟨_,List.mem_cons_self,hpromoted⟩
  · rcases hnew userId hlink with hold | ⟨actor,_,hpermission,_⟩
    · exact h.nobody hstart userId hold
    · exact h.nobody hstart actor (admin_of_privilege h.seeded rolesAssign_privilege hpermission)
  · rcases List.mem_cons.mp hentry with rfl | hold
    · obtain ⟨added,ip,ua,hadded⟩ := (hg.authorised h.seeded).audits
      refine ⟨added++[assignEvent actor target roleName ip ua],[],?_,(List.append_nil _).symm,
        assignEvent actor target roleName ip ua,?_,rfl,rfl,rfl,rfl,?_⟩
      · rw [hadded,List.append_assoc]
      · exact List.mem_append_right _ (List.mem_singleton_self _)
      · exact sanitizePayload_roleName roleName
    · obtain ⟨added,hadded⟩ := haudits
      exact (h.audited entry hold actor target roleName hg).later hadded

/-- The roles, permissions and links of a database are those the first start
leaves in an empty one. -/
def SameSeeds (draws : ℕ) (db : Tables) : Prop :=
  rolesOf db=rolesOf (freshService draws).db ∧
    permissionsOf db=permissionsOf (freshService draws).db ∧
    rolePermissionsOf db=rolePermissionsOf (freshService draws).db

/-- Tables with the same seeds are seeded. -/
theorem SameSeeds.seeded {db : Tables} (h : SameSeeds n db) : Seeded n db := by
  have hfresh : Seeded n (freshService n).db := by
    rw [freshService_db]
    exact seeded_seededTables n
  obtain ⟨hroles,hpermissions,hlinks⟩ := h
  exact ⟨hroles.trans hfresh.roles,hpermissions.trans hfresh.permissions,
    hlinks.trans hfresh.rolePermissions⟩

/-- No privilege is gained but by authorised and audited assignments. -/
structure NoEscalation (start : ServerState) (trace : Trace) (s : ServerState) : Prop where
  /-- Who is privileged was an administrator or was made one. -/
  privileged : ∀ userId,∀ name∈[permissionRolesAssign,permissionUsersRead,permissionUsersWrite],
    name∈permissionNamesForUser s.db userId →
      Holds start.db userId roleAdmin ∨ ∃ entry∈trace,Promoted entry userId
  /-- Without administrators all permissions concern the own profile. -/
  selfOnly : (∀ userId,¬Holds start.db userId roleAdmin) → ∀ userId,
    ∀ name∈permissionNamesForUser s.db userId,
      name∈[permissionProfileReadSelf,permissionProfileWriteSelf]
  /-- Every committed assignment names the granting user. -/
  audited : ∀ entry∈trace,∀ actor target roleName,Grants entry actor target roleName →
    Audited entry s.db actor target roleName
  /-- Seeding again changes no permission. -/
  reseeded : ∀ userId,permissionNamesForUser (s.next .restart).db userId=
    permissionNamesForUser s.db userId

/-- No privilege escalation: in every run from a seeded database, privileges
come from administrators of the start or from assignments by users who held the
permission to assign, all of them audited. -/
theorem no_escalation {draws : ℕ} (hstart : SameSeeds draws start.db)
    (h : Runs (fun _ _ => True) start trace s) : NoEscalation start trace s := by
  have htracked : Tracked draws start trace s := by
    refine h.invariant (Tracked draws start) ?_ ?_
    · exact ⟨hstart.seeded,fun _ hlink => .inl hlink,id,fun _ => nofun⟩
    · intro trace s input hs _
      cases input with
      | call client => exact hs.call
      | restart => exact hs.restart
  refine ⟨fun userId name hname hholds => ?_,fun hnobody userId name hholds => ?_,
    htracked.audited,fun userId => by rw [restart_seeded htracked.seeded]⟩
  · have hprivilege : name∉[permissionProfileReadSelf,permissionProfileWriteSelf] := by
      simp only [List.mem_cons,List.not_mem_nil,or_false] at hname
      rcases hname with rfl | rfl | rfl <;> decide
    have hlink := admin_of_privilege htracked.seeded hprivilege hholds
    exact (htracked.administrators userId hlink).imp_left (holds_admin hstart.seeded).mpr
  · rcases htracked.seeded.mem_permissionNamesForUser.mp hholds with ⟨_,hself⟩ | ⟨hlink,_⟩
    · exact hself
    · have hnone : ∀ other,UserRole.mk other ⟨draws+1⟩∉userRolesOf start.db := fun other hother =>
        hnobody other ((holds_admin hstart.seeded).mpr hother)
      exact absurd hlink (htracked.nobody hnone userId)

/-- Two known users, the first of them an administrator. -/
def sampleStart : ServerState :=
  let seeded := (freshService 5).db
  let users := put seeded .appUsers [⟨⟨77⟩,UUID.str ⟨77⟩,true⟩,⟨⟨88⟩,UUID.str ⟨88⟩,true⟩]
  let profiles := put users .userProfiles
    [⟨⟨77⟩,none,"en-US","UTC",none⟩,⟨⟨88⟩,none,"en-US","UTC",none⟩]
  ⟨12,put profiles .userRoles [⟨⟨77⟩,⟨5⟩⟩,⟨⟨77⟩,⟨6⟩⟩,⟨⟨88⟩,⟨5⟩⟩]⟩

/-- The administrator makes the second user one. -/
def sampleGrant : Input :=
  .call ⟨.assignRole (some ⟨88⟩) (some ⟨"admin",by decide⟩),none,.ok ⟨⟨77⟩,⟨1⟩⟩,false,
    "198.51.100.7",some "browser"⟩

/-- An administrator grants the sample user the right to assign roles. -/
theorem no_escalation_grant :
    NoEscalation sampleStart [(sampleStart,sampleGrant)] (sampleStart.next sampleGrant) ∧
      permissionRolesAssign∈permissionNamesForUser (sampleStart.next sampleGrant).db ⟨88⟩ := by
  have hstart : SameSeeds 5 sampleStart.db := by
    refine ⟨?_,?_,?_⟩ <;> simp [sampleStart]
  have hrun : Runs (fun _ _ => True) sampleStart [(sampleStart,sampleGrant)]
      (sampleStart.next sampleGrant) := .step sampleGrant .refl trivial
  have hgranted : permissionRolesAssign∈
      permissionNamesForUser (sampleStart.next sampleGrant).db ⟨88⟩ := by
    decide +kernel
  exact ⟨no_escalation hstart hrun,hgranted⟩

end Theorem

end BackendPlatform.RoleGrants
