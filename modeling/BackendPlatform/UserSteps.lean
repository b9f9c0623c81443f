import BackendPlatform.UserRequests

/-!
# What a request of the user service does

Every step of a request that has not been committed yet turns the working
copy into another one and leaves no unflushed change behind; a failure leaves
the committed tables alone. The steps add up to one inversion of a whole
request: it fails or reads without any trace, or it commits the context of
its subject together with one update or one assignment.
-/

set_option autoImplicit false

namespace BackendPlatform.UserSteps

open ProgramTrees TransactionalTables
open AuthRecords (UUID)
open UserRecords UserRequests

section Rules

variable {α β : Type} {c db : Tables}

/-- Replace the rows of a table. -/
def put (db : Tables) (t : Table) (rows : List (Row t)) : Tables := Function.update db t rows

/-- Add a row to a table. -/
def append (db : Tables) (t : Table) (row : Row t) : Tables := put db t (db t++[row])

/-- The replaced table reads as the new rows. -/
@[simp] theorem put_self (db : Tables) (t : Table) (rows : List (Row t)) : put db t rows t=rows :=
  Function.update_self _ _ _

/-- The other tables read as before. -/
@[simp] theorem put_of_ne {t other : Table} (rows : List (Row t)) (h : other≠t) :
    put db t rows other=db other := Function.update_of_ne h _ _

/-- The table of an appended row reads with that row at its end. -/
@[simp] theorem append_self (db : Tables) (t : Table) (row : Row t) :
    append db t row t=db t++[row] := put_self _ _ _

/-- The other tables read as before. -/
@[simp] theorem append_of_ne {t other : Table} (row : Row t) (h : other≠t) :
    append db t row other=db other := put_of_ne _ h

/-- A session without unflushed changes over committed tables and a working
copy. -/
def Clean (c db : Tables) (w : World) : Prop := ∃ draws,w=⟨draws,⟨c,db⟩,[]⟩

/-- An action that succeeds with a new working copy or fails, and commits
nothing. -/
def Steps (p : Action α) (c db : Tables) (Q : α → Tables → Prop) : Prop :=
  ∀ w,Clean c db w → p.Ensures World.perform w fun o w' =>
    (∀ a,o=.ok a → ∃ db',Clean c db' w' ∧ Q a db') ∧ w'.data.committed=c

/-- A weaker postcondition follows. -/
theorem Steps.mono {p : Action α} {Q R : α → Tables → Prop} (h : Steps p c db Q)
    (hqr : ∀ a db',Q a db' → R a db') : Steps p c db R := by
  intro w hw
  refine (h w hw).mono fun o w' h' => ⟨fun a ha => ?_,h'.2⟩
  obtain ⟨db',hclean,hq⟩ := h'.1 a ha
  exact ⟨db',hclean,hqr a db' hq⟩

/-- The rule of sequencing. -/
theorem Steps.bind {p : Action α} {f : α → Action β} {Q : α → Tables → Prop}
    {R : β → Tables → Prop} (hp : Steps p c db Q)
    (hf : ∀ a db',Q a db' → Steps (f a) c db' R) : Steps (p.bind f) c db R := by
  intro w hw
  refine (hp w hw).bind (fun a w' h' => ?_) fun e w' h' => ⟨nofun,h'.2⟩
  obtain ⟨db',hclean,hq⟩ := h'.1 a rfl
  exact hf a db' hq w' hclean

/-- A returned value leaves the tables as they are. -/
theorem steps_pure {a : α} {Q : α → Tables → Prop} (h : Q a db) :
    Steps (.pure a : Action α) c db Q := by
  rintro w ⟨draws,rfl⟩
  refine ⟨fun b hb => ?_,rfl⟩
  obtain rfl := Except.ok.inj hb
  exact ⟨db,⟨draws,rfl⟩,h⟩

/-- A failure is rolled back, so nothing is promised of its tables. -/
theorem steps_raise (e : Failure) (Q : α → Tables → Prop) :
    Steps (.raise e : Action α) c db Q := by
  rintro w ⟨draws,rfl⟩
  exact ⟨nofun,rfl⟩

/-- A query returns what it selects. -/
theorem steps_select (t : Table) (q : Row t → Bool) :
    Steps (select t q) c db fun rows db' => db'=db ∧ rows=(db t).filter q := by
  rintro w ⟨draws,rfl⟩
  refine ⟨fun rows hrows => ?_,rfl⟩
  obtain rfl := Except.ok.inj hrows
  exact ⟨db,⟨draws,rfl⟩,rfl,rfl⟩

/-- The roles listed are those linked to the user. -/
theorem steps_listRolesForUser (userId : UUID) :
    Steps (RBACRepository.listRolesForUser userId) c db fun roles db' =>
      db'=db ∧ roles=rolesForUser db userId := by
  rintro w ⟨draws,rfl⟩
  refine ⟨fun rows hrows => ?_,rfl⟩
  obtain rfl := Except.ok.inj hrows
  exact ⟨db,⟨draws,rfl⟩,rfl,rfl⟩

/-- The permissions listed are those of the user's roles. -/
theorem steps_listPermissionNamesForUser (userId : UUID) :
    Steps (RBACRepository.listPermissionNamesForUser userId) c db fun names db' =>
      db'=db ∧ names=permissionNamesForUser db userId := by
  rintro w ⟨draws,rfl⟩
  refine ⟨fun rows hrows => ?_,rfl⟩
  obtain rfl := Except.ok.inj hrows
  exact ⟨db,⟨draws,rfl⟩,rfl,rfl⟩

/-- After a flush nothing is new or changed. -/
theorem steps_changed : Steps changed c db fun answer db' => db'=db ∧ answer=false := by
  rintro w ⟨draws,rfl⟩
  refine ⟨fun answer hanswer => ?_,rfl⟩
  obtain rfl := Except.ok.inj hanswer
  exact ⟨db,⟨draws,rfl⟩,rfl,rfl⟩

/-- Picking a row needs the result to be that row alone. -/
theorem steps_scalarOneOrNone (rows : List α) :
    Steps (scalarOneOrNone rows) c db fun found db' => db'=db ∧ (found=none → rows=[]) ∧
      ∀ row,found=some row → rows=[row] := by
  match rows with
  | [] => exact steps_pure ⟨rfl,fun _ => rfl,fun _ => nofun⟩
  | [row] =>
    refine steps_pure ⟨rfl,nofun,fun other hother => ?_⟩
    obtain rfl := Option.some.inj hother
    rfl
  | _::_::_ => exact steps_raise _ _

/-- A query for at most one row. -/
theorem steps_one (t : Table) (q : Row t → Bool) :
    Steps ((select t q).bind scalarOneOrNone) c db fun found db' => db'=db ∧
      (found=none → (db t).filter q=[]) ∧ ∀ row,found=some row → (db t).filter q=[row] := by
  refine (steps_select t q).bind fun rows db' h => ?_
  obtain ⟨rfl,rfl⟩ := h
  exact steps_scalarOneOrNone _

/-- The row passes all checks of its table. -/
structure Accepted (db : Tables) (t : Table) (row : Row t) : Prop where
  /-- Column lengths. -/
  valid : valid t row=true
  /-- Unique constraints. -/
  conflict : ∀ other∈db t,conflict t row other=false

/-- A written row was accepted by the constraints and is appended. -/
theorem write_add {t : Table} {row : Row t} {data : Transaction userSchema}
    (h : write (.add t row) ⟨c,db⟩=.ok data) :
    Accepted db t row ∧ data=⟨c,append db t row⟩ := by
  simp only [write,Transaction.insertRow] at h
  by_cases hvalid : valid t row=true
  · rw [if_pos hvalid] at h
    by_cases hconflict : (db t).any (conflict t row)=true
    · rw [if_pos hconflict] at h
      cases h
    · rw [if_neg hconflict] at h
      refine ⟨⟨hvalid,fun other hother => ?_⟩,(Except.ok.inj h).symm⟩
      exact Bool.eq_false_iff.mpr (List.any_eq_false.mp (Bool.eq_false_iff.mpr hconflict) other hother)
  · rw [if_neg hvalid] at h
    cases h

/-- A flush writes all changes or rolls back. -/
theorem flush_ends (w : World) : flush.Ensures World.perform w fun o w' =>
    (∀ a,o=.ok a → ∃ data,writeAll w.unflushed w.data=.ok data ∧ w'=⟨w.draws,data,[]⟩) ∧
      ∀ e,o=.error e → w'.data.committed=w.data.committed := by
  have hrun : flush.run World.perform w=
      ((raiseFailed w.flush.1).run World.perform w.flush.2) := rfl
  unfold Program.Ensures
  rw [hrun]
  unfold World.flush
  cases hwritten : writeAll w.unflushed w.data with
  | ok data => exact ⟨fun _ _ => ⟨data,rfl,rfl⟩,nofun⟩
  | error e => exact ⟨nofun,fun _ _ => rfl⟩

/-- A row that is added waits for the next flush. -/
theorem add_ends (t : Table) (row : Row t) (w : World) :
    (add t row).Ensures World.perform w fun o w' =>
      o=.ok () ∧ w'={w with unflushed := w.unflushed++[.add t row]} := ⟨rfl,rfl⟩

/-- An assignment waits for the next flush. -/
theorem assign_ends (t : Table) (isRow : Row t → Bool) (f : Row t → Row t) (w : World) :
    (assign t isRow f).Ensures World.perform w fun o w' =>
      o=.ok () ∧ w'={w with unflushed := w.unflushed++[.assign t isRow f]} := ⟨rfl,rfl⟩

/-- An added row is written by the next flush. -/
theorem steps_insert (t : Table) (row : Row t) :
    Steps ((add t row).bind fun _ => flush) c db fun _ db' =>
      Accepted db t row ∧ db'=append db t row := by
  rintro w ⟨draws,rfl⟩
  refine (add_ends t row _).bind (fun _ w₁ h₁ => ?_) fun e w₁ h₁ => absurd h₁.1 nofun
  obtain ⟨_,rfl⟩ := h₁
  refine (flush_ends _).mono fun o w' h' => ?_
  obtain ⟨hok,herror⟩ := h'
  cases o with
  | error e => exact ⟨nofun,herror e rfl⟩
  | ok a =>
    obtain ⟨data,hwritten,rfl⟩ := hok a rfl
    simp only [List.nil_append,writeAll] at hwritten
    split at hwritten
    · rename_i data' hwrite
      obtain rfl := Except.ok.inj hwritten
      obtain ⟨haccepted,rfl⟩ := write_add hwrite
      exact ⟨fun _ _ => ⟨append db t row,⟨draws,rfl⟩,haccepted,rfl⟩,rfl⟩
    · cases hwritten

/-- Two added rows are written by the next flush. -/
theorem steps_insertTwo (t u : Table) (row : Row t) (next : Row u) :
    Steps ((add t row).bind fun _ => (add u next).bind fun _ => flush) c db fun _ db' =>
      Accepted db t row ∧ Accepted (append db t row) u next ∧
        db'=append (append db t row) u next := by
  rintro w ⟨draws,rfl⟩
  refine (add_ends t row _).bind (fun _ w₁ h₁ => ?_) fun e w₁ h₁ => absurd h₁.1 nofun
  obtain ⟨_,rfl⟩ := h₁
  refine (add_ends u next _).bind (fun _ w₂ h₂ => ?_) fun e w₂ h₂ => absurd h₂.1 nofun
  obtain ⟨_,rfl⟩ := h₂
  refine (flush_ends _).mono fun o w' h' => ?_
  obtain ⟨hok,herror⟩ := h'
  cases o with
  | error e => exact ⟨nofun,herror e rfl⟩
  | ok a =>
    obtain ⟨data,hwritten,rfl⟩ := hok a rfl
    simp only [List.nil_append,List.cons_append,writeAll] at hwritten
    split at hwritten
    · rename_i data' hwrite
      obtain ⟨haccepted,rfl⟩ := write_add hwrite
      split at hwritten
      · rename_i data'' hwrite'
        obtain rfl := Except.ok.inj hwritten
        obtain ⟨haccepted',rfl⟩ := write_add hwrite'
        exact ⟨fun _ _ => ⟨_,⟨draws,rfl⟩,haccepted,haccepted',rfl⟩,rfl⟩
      · cases hwritten
    · cases hwritten

/-- An assignment to a loaded object is written by the next flush. -/
theorem steps_assign (t : Table) (isRow : Row t → Bool) (f : Row t → Row t) :
    Steps ((assign t isRow f).bind fun _ => flush) c db fun _ db' =>
      db'=put db t ((db t).map fun r => if isRow r then f r else r) := by
  rintro w ⟨draws,rfl⟩
  refine (assign_ends t isRow f _).bind (fun _ w₁ h₁ => ?_) fun e w₁ h₁ => absurd h₁.1 nofun
  obtain ⟨_,rfl⟩ := h₁
  refine (flush_ends _).mono fun o w' h' => ?_
  obtain ⟨hok,herror⟩ := h'
  cases o with
  | error e => exact ⟨nofun,herror e rfl⟩
  | ok a =>
    obtain ⟨data,hwritten,rfl⟩ := hok a rfl
    simp only [List.nil_append,writeAll,write] at hwritten
    split at hwritten
    · rename_i data' hwrite
      obtain rfl := Except.ok.inj hwritten
      split at hwrite
      · cases hwrite
      · split at hwrite
        · obtain rfl := Except.ok.inj hwrite
          exact ⟨fun _ _ => ⟨_,⟨draws,rfl⟩,rfl⟩,rfl⟩
        · cases hwrite
    · cases hwritten

/-- An action that ends with committed tables. -/
def Finishes (p : Action α) (c db : Tables) (R : Except Failure α → Tables → Prop) : Prop :=
  ∀ w,Clean c db w → p.Ensures World.perform w fun o w' => R o w'.data.committed

/-- Steps before an action that finishes. -/
theorem Steps.finish {p : Action α} {f : α → Action β} {Q : α → Tables → Prop}
    {R : Except Failure β → Tables → Prop} (hp : Steps p c db Q)
    (hf : ∀ a db',Q a db' → Finishes (f a) c db' R) (hfail : ∀ e,R (.error e) c) :
    Finishes (p.bind f) c db R := by
  intro w hw
  refine (hp w hw).bind (fun a w' h' => ?_) fun e w' h' => ?_
  · obtain ⟨db',hclean,hq⟩ := h'.1 a rfl
    exact hf a db' hq w' hclean
  · show R (.error e) w'.data.committed
    rw [h'.2]
    exact hfail e

/-- Without a commit nothing is left. -/
theorem Steps.uncommitted {p : Action α} {Q : α → Tables → Prop}
    {R : Except Failure α → Tables → Prop} (hp : Steps p c db Q)
    (hok : ∀ a db',Q a db' → R (.ok a) c) (hfail : ∀ e,R (.error e) c) :
    Finishes p c db R := by
  intro w hw
  refine (hp w hw).mono fun o w' h' => ?_
  rw [h'.2]
  cases o with
  | ok a =>
    obtain ⟨db',_,hq⟩ := h'.1 a rfl
    exact hok a db' hq
  | error e => exact hfail e

/-- A commit publishes the working copy. -/
theorem finishes_commit {a : α} {R : Except Failure α → Tables → Prop} (h : R (.ok a) db) :
    Finishes (commit.bind fun _ => .pure a) c db R := by
  rintro w ⟨draws,rfl⟩
  exact h

end Rules

section Services

variable {c db : Tables}

/-- The user holds the role afterwards. -/
inductive Assigned (db : Tables) (userId roleId : UUID) : Tables → Prop
  /-- It held the role before. -/
  | held : UserRole.mk userId roleId∈userRolesOf db → Assigned db userId roleId db
  /-- The role is new. -/
  | added : UserRole.mk userId roleId∉userRolesOf db →
    Assigned db userId roleId (append db .userRoles ⟨userId,roleId⟩)

/-- Assigning a role links it once. -/
theorem steps_assignRoleToUser (userId roleId : UUID) :
    Steps (RBACRepository.assignRoleToUser userId roleId) c db fun _ db' =>
      Assigned db userId roleId db' := by
  refine (steps_select .userRoles fun r => r.userId==userId && r.roleId==roleId).bind
    fun rows db₁ h₁ => ?_
  obtain ⟨rfl,rfl⟩ := h₁
  refine (steps_scalarOneOrNone _).bind fun found db₂ h₂ => ?_
  obtain ⟨rfl,hnone,hsome⟩ := h₂
  cases found with
  | none =>
    refine (steps_insert .userRoles ⟨userId,roleId⟩).mono fun _ db' h' => ?_
    obtain ⟨_,rfl⟩ := h'
    refine .added fun hmem => ?_
    have hempty := List.filter_eq_nil_iff.mp (hnone rfl) _ hmem
    simp at hempty
  | some row =>
    refine steps_pure ?_
    have hrow : row∈(userRolesOf db₂).filter fun r => r.userId==userId && r.roleId==roleId := by
      rw [hsome row rfl]
      exact List.mem_singleton_self _
    obtain ⟨hmem,hq⟩ := List.mem_filter.mp hrow
    simp only [Bool.and_eq_true,beq_iff_eq] at hq
    refine .held ?_
    obtain ⟨rfl,rfl⟩ := hq
    exact hmem

/-- A named role that was found is the only one of its name. -/
theorem steps_getRoleByName (roleName : String) :
    Steps (RBACRepository.getRoleByName roleName) c db fun found db' => db'=db ∧
      ∀ role,found=some role → (rolesOf db).filter (fun r => r.name==roleName)=[role] :=
  (steps_one .roles fun r => r.name==roleName).mono fun _ _ h => ⟨h.1,h.2.2⟩

/-- Logging appends one audit row that the constraints accept. -/
theorem steps_logEvent (eventType outcome : String) (actor target : Option UUID)
    (ip ua : Option String) (payload : List (String×PayloadValue)) :
    Steps (AuditService.logEvent eventType outcome actor target ip ua payload) c db fun _ db' =>
      Accepted db .auditEvents
        ⟨eventType,outcome,actor,target,ip,ua,AuditService.sanitizePayload payload⟩ ∧
      db'=append db .auditEvents
        ⟨eventType,outcome,actor,target,ip,ua,AuditService.sanitizePayload payload⟩ :=
  steps_insert .auditEvents _

/-- A new user with its profile. -/
def created (db : Tables) (subject : UUID) : Tables :=
  append (append db .appUsers ⟨subject,subject.str,true⟩) .userProfiles
    ⟨subject,none,"en-US","UTC",none⟩

/-- The audit row of a bootstrap. -/
def bootstrapEvent (subject : UUID) (ip ua : Option String) : AuditEvent :=
  ⟨auditUserBootstrapped,"success",some subject,some subject,ip,ua,[]⟩

/-- The user of a subject, created at the first contact. -/
inductive Bootstrapped (db : Tables) (subject : UUID) (ip ua : Option String) :
    AppUser → Tables → Prop
  /-- The user is known. -/
  | known (user : AppUser) :
    (appUsersOf db).filter (fun r => r.externalSubject==subject.str)=[user] →
      Bootstrapped db subject ip ua user db
  /-- The user is new. -/
  | fresh (role : Role) (db' : Tables) :
    (appUsersOf db).filter (fun r => r.externalSubject==subject.str)=[] →
      Accepted db .appUsers ⟨subject,subject.str,true⟩ →
      Accepted (append db .appUsers ⟨subject,subject.str,true⟩) .userProfiles
        ⟨subject,none,"en-US","UTC",none⟩ →
      (rolesOf db).filter (fun r => r.name==roleUser)=[role] →
      Assigned (created db subject) subject role.id db' →
      Accepted db' .auditEvents (bootstrapEvent subject ip ua) →
      Bootstrapped db subject ip ua ⟨subject,subject.str,true⟩
        (append db' .auditEvents (bootstrapEvent subject ip ua))

/-- The first contact adds the user with the default role; later ones find it.
-/
theorem steps_bootstrapFromSubject (subject : UUID) (ip ua : Option String) :
    Steps (UserService.bootstrapFromSubject subject ip ua) c db (Bootstrapped db subject ip ua) := by
  refine (steps_one .appUsers fun r => r.externalSubject==subject.str).bind fun found db₁ h₁ => ?_
  obtain ⟨rfl,hnone,hsome⟩ := h₁
  cases found with
  | some existing => exact steps_pure (.known existing (hsome existing rfl))
  | none =>
    have hcreate : Steps (UserRepository.create subject subject.str) c db₁ fun user db' =>
        user=⟨subject,subject.str,true⟩ ∧ Accepted db₁ .appUsers ⟨subject,subject.str,true⟩ ∧
          Accepted (append db₁ .appUsers ⟨subject,subject.str,true⟩) .userProfiles
            ⟨subject,none,"en-US","UTC",none⟩ ∧ db'=created db₁ subject := by
      refine (steps_insertTwo .appUsers .userProfiles ⟨subject,subject.str,true⟩
        ⟨subject,none,"en-US","UTC",none⟩).bind fun _ db' h => ?_
      exact steps_pure ⟨rfl,h⟩
    refine hcreate.bind fun user db₂ h₂ => ?_
    obtain ⟨rfl,huser,hprofile,rfl⟩ := h₂
    have hrole : Steps (RBACService.ensureDefaultUserRole subject) c (created db₁ subject)
        fun _ db' => ∃ role,(rolesOf db₁).filter (fun r => r.name==roleUser)=[role] ∧
          Assigned (created db₁ subject) subject role.id db' := by
      refine (steps_getRoleByName roleUser).bind fun found db₃ h₃ => ?_
      obtain ⟨rfl,hfound⟩ := h₃
      cases found with
      | none => exact steps_raise _ _
      | some role =>
        refine (steps_assignRoleToUser subject role.id).mono fun _ db' h => ⟨role,?_,h⟩
        have hroles : rolesOf (created db₁ subject)=rolesOf db₁ := by simp [created]
        rw [←hroles]
        exact hfound role rfl
    refine hrole.bind fun _ db₃ h₃ => ?_
    obtain ⟨role,hname,hassigned⟩ := h₃
    refine (steps_logEvent _ _ _ _ ip ua []).bind fun _ db₄ h₄ => ?_
    obtain ⟨haudit,rfl⟩ := h₄
    exact steps_pure (.fresh role db₃ (hnone rfl) huser hprofile hname hassigned haudit)

/-- The context of a request and the working copy it leaves. -/
structure Contextual (c : ClientRequest) (db : Tables) (context : UserContext)
    (claims : AccessTokenClaims) (db' : Tables) : Prop where
  /-- The token was accepted. -/
  authorization : c.authorization=.ok claims
  /-- Its session is active. -/
  sessionActive : c.sessionRevoked=false
  /-- The user of the subject. -/
  user : Bootstrapped db claims.sub (some c.ipAddress) c.userAgent context.user db'
  /-- Its profile. -/
  profile : (profilesOf db').filter (fun r => r.userId==context.user.id)=[context.profile]
  /-- Its roles. -/
  roles : context.roles=(rolesForUser db' context.user.id).map (·.name)
  /-- Its permissions. -/
  permissions : context.permissions=permissionNamesForUser db' context.user.id
  /-- It is switched on. -/
  isActive : context.user.isActive=true

/-- The context of a request is that of its claims' subject. -/
theorem steps_getCurrentContext (client : ClientRequest) :
    Steps (Endpoints.getCurrentContext client) c db fun context db' =>
      ∃ claims,Contextual client db context claims db' := by
  unfold Endpoints.getCurrentContext
  cases hauthorization : client.authorization with
  | error failure => exact steps_raise _ _
  | ok claims =>
    cases hrevoked : client.sessionRevoked with
    | true => exact steps_raise _ _
    | false =>
      have hcontext : Steps (UserService.contextForSubject claims.sub (some client.ipAddress)
          client.userAgent) c db fun context db' =>
            Bootstrapped db claims.sub (some client.ipAddress) client.userAgent context.user db' ∧
            (profilesOf db').filter (fun r => r.userId==context.user.id)=[context.profile] ∧
            context.roles=(rolesForUser db' context.user.id).map (·.name) ∧
            context.permissions=permissionNamesForUser db' context.user.id := by
        refine (steps_bootstrapFromSubject claims.sub _ _).bind fun user db₁ h₁ => ?_
        refine (steps_one .userProfiles fun r => r.userId==user.id).bind fun found db₂ h₂ => ?_
        obtain ⟨rfl,_,hsome⟩ := h₂
        cases found with
        | none => exact steps_raise _ _
        | some profile =>
          have hroles : Steps (RBACService.listRoleNamesForUser user.id) c db₂ fun names db' =>
              db'=db₂ ∧ names=(rolesForUser db₂ user.id).map (·.name) := by
            refine (steps_listRolesForUser user.id).bind fun roles db' h => ?_
            exact steps_pure ⟨h.1,by rw [h.2]⟩
          refine hroles.bind fun roles db₃ h₃ => ?_
          obtain ⟨rfl,hroles⟩ := h₃
          refine (steps_listPermissionNamesForUser user.id).bind fun permissions db₄ h₄ => ?_
          obtain ⟨rfl,hpermissions⟩ := h₄
          exact steps_pure ⟨h₁,hsome profile rfl,hroles,hpermissions⟩
      have hrest : ∀ context db',Contextual client db context claims db' →
          Steps (changed.bind fun answer => if answer=true then commit.bind fun _ => .pure context
            else .pure context) c db' fun context db' =>
              ∃ claims,Contextual client db context claims db' := by
        intro context db' hcontextual
        refine steps_changed.bind fun answer db'' h => ?_
        obtain ⟨rfl,rfl⟩ := h
        exact steps_pure ⟨claims,hcontextual⟩
      refine hcontext.bind fun context db₁ h₁ => ?_
      obtain ⟨hboot,hprofile,hroles,hpermissions⟩ := h₁
      cases hactive : context.user.isActive with
      | false => exact steps_raise _ _
      | true =>
        exact hrest context db₁
          ⟨hauthorization,hrevoked,hboot,hprofile,hroles,hpermissions,hactive⟩

end Services

section Answers

/-- The audit row of a profile update. -/
def updateEvent (actor : UUID) (payload : UpdateProfileRequest) (ip ua : Option String) :
    AuditEvent :=
  ⟨auditProfileUpdated,"success",some actor,some actor,ip,ua,AuditService.sanitizePayload
    [("locale",.str payload.locale),("timezone",.str payload.timezone),
      ("has_avatar",.bool (payload.avatarUrl.any fun url => !url.isEmpty))]⟩

/-- The audit row of an assignment. -/
def assignEvent (actor target : UUID) (roleName : String) (ip ua : Option String) : AuditEvent :=
  ⟨auditRoleAssigned,"success",some actor,some target,ip,ua,AuditService.sanitizePayload
    [("role_name",.str roleName)]⟩

/-- The tables after a profile update. -/
def updatedTables (db : Tables) (userId : UUID) (payload : UpdateProfileRequest)
    (event : AuditEvent) : Tables :=
  append (put db .userProfiles ((profilesOf db).map fun r =>
    if r.userId==userId then ProfileRepository.updated payload r else r)) .auditEvents event

/-- What a reading request needs: `GET /users/{user_id}` a permission. -/
def Readable (context : UserContext) : Request → Prop
  | .getUser _ => permissionUsersRead∈context.permissions
  | .updateProfile _ => False
  | .assignRole _ _ => False
  | _ => True

/-- The request grants a role to a user. -/
structure Granted (c : ClientRequest) (db : Tables) (context : UserContext)
    (claims : AccessTokenClaims) (target : UUID) (payload : AssignRoleRequest) (db' : Tables) :
    Prop where
  /-- The request. -/
  request : c.request=.assignRole (some target) (some payload)
  /-- The tables after the grant. -/
  tables : ∃ db₁ db₂ role,Contextual c db context claims db₁ ∧
    permissionRolesAssign∈context.permissions ∧
    (∃ user∈appUsersOf db₁,user.id=target) ∧
    (rolesOf db₁).filter (fun r => r.name==payload.roleName)=[role] ∧
    Assigned db₁ target role.id db₂ ∧
    db'=append db₂ .auditEvents
      (assignEvent context.user.id target payload.roleName (some c.ipAddress) c.userAgent)

/-- How a request ends, with the committed tables it leaves. -/
inductive Answered (c : ClientRequest) (db : Tables) : Except Failure Response → Tables → Prop
  /-- A failure commits nothing. -/
  | failed (e : Failure) : Answered c db (.error e) db
  /-- A reading request commits nothing. -/
  | read (response : Response) (context : UserContext) (claims : AccessTokenClaims)
    (db' : Tables) : Contextual c db context claims db' → Readable context c.request →
      Answered c db (.ok response) db
  /-- A profile update. -/
  | updated (response : Response) (context : UserContext) (claims : AccessTokenClaims)
    (payload : UpdateProfileRequest) (db' : Tables) :
      c.request=.updateProfile (some payload) → Contextual c db context claims db' →
      Answered c db (.ok response) (updatedTables db' context.user.id payload
        (updateEvent context.user.id payload (some c.ipAddress) c.userAgent))
  /-- An assignment. -/
  | granted (response : Response) (context : UserContext) (claims : AccessTokenClaims)
    (target : UUID) (payload : AssignRoleRequest) (db' : Tables) :
      Granted c db context claims target payload db' → Answered c db (.ok response) db'

variable {c db : Tables}

/-- A request past this check holds the permission. -/
theorem steps_ensurePermission (permissions : List String) (required : String) :
    Steps (Endpoints.ensurePermission permissions required) c db fun _ db' =>
      db'=db ∧ required∈permissions := by
  unfold Endpoints.ensurePermission
  split
  · exact steps_raise _ _
  · rename_i hmem
    exact steps_pure ⟨rfl,not_not.mp hmem⟩

/-- A request past validation carries the parameter. -/
theorem steps_validated {α : Type} (parameter : Option α) :
    Steps (Endpoints.validated parameter) c db fun value db' =>
      db'=db ∧ parameter=some value := by
  cases parameter with
  | none => exact steps_raise _ _
  | some value => exact steps_pure ⟨rfl,rfl⟩

/-- The rate limit changes no table. -/
theorem steps_rateLimit (limited : Option Failure) :
    Steps (Endpoints.rateLimit limited) c db fun _ db' => db'=db := by
  cases limited with
  | none => exact steps_pure rfl
  | some failure => exact steps_raise _ _

/-- The user that is returned is in the table under that id. -/
theorem steps_getUserById (userId : UUID) :
    Steps (UserService.getUserById userId) c db fun user db' =>
      db'=db ∧ user∈appUsersOf db ∧ user.id=userId := by
  refine (steps_one .appUsers fun r => r.id==userId).bind fun found db₁ h₁ => ?_
  obtain ⟨rfl,_,hsome⟩ := h₁
  cases found with
  | none => exact steps_raise _ _
  | some user =>
    have hmem : user∈(appUsersOf db₁).filter fun r => r.id==userId := by
      rw [hsome user rfl]
      exact List.mem_singleton_self _
    obtain ⟨hstored,hid⟩ := List.mem_filter.mp hmem
    exact steps_pure ⟨rfl,hstored,by simpa using hid⟩

/-- The update of a profile and its audit row. -/
theorem steps_updateOwnProfile (userId : UUID) (payload : UpdateProfileRequest)
    (ip ua : Option String) :
    Steps (UserService.updateOwnProfile userId userId payload ip ua) c db fun _ db' =>
      db'=updatedTables db userId payload (updateEvent userId payload ip ua) := by
  refine (steps_one .userProfiles fun r => r.userId==userId).bind fun found db₁ h₁ => ?_
  obtain ⟨rfl,_,hsome⟩ := h₁
  cases found with
  | none => exact steps_raise _ _
  | some profile =>
    have hmem : profile∈(profilesOf db₁).filter fun r => r.userId==userId := by
      rw [hsome profile rfl]
      exact List.mem_singleton_self _
    have hid : profile.userId=userId := by simpa using (List.mem_filter.mp hmem).2
    have hupdate : Steps (ProfileRepository.update profile payload) c db₁ fun _ db' =>
        db'=put db₁ .userProfiles ((profilesOf db₁).map fun r =>
          if r.userId==userId then ProfileRepository.updated payload r else r) := by
      refine (steps_assign .userProfiles (fun r => r.userId==profile.userId)
        (ProfileRepository.updated payload)).bind fun _ db' h => ?_
      rw [hid] at h
      exact steps_pure h
    refine hupdate.bind fun updated db₂ h₂ => ?_
    subst h₂
    refine (steps_logEvent _ _ _ _ ip ua _).bind fun _ db₃ h₃ => ?_
    exact steps_pure h₃.2

/-- A changed profile is committed with its audit row. -/
theorem finishes_updateProfile {client : ClientRequest} {context : UserContext}
    {claims : AccessTokenClaims} {payload : UpdateProfileRequest}
    (hrequest : client.request=.updateProfile (some payload))
    (h : Contextual client c context claims db) :
    Finishes (Endpoints.updateProfile client context payload) c db (Answered client c) := by
  refine (steps_ensurePermission _ _).finish (fun _ db₁ h₁ => ?_) .failed
  obtain ⟨rfl,_⟩ := h₁
  refine (steps_updateOwnProfile context.user.id payload _ _).finish (fun updated db₂ h₂ => ?_)
    .failed
  subst h₂
  exact finishes_commit (.updated _ context claims payload db₁ hrequest h)

/-- The role assigned is the one of that name. -/
theorem steps_assignRoleByName (userId : UUID) (roleName : String) :
    Steps (RBACService.assignRoleByName userId roleName) c db fun _ db' =>
      ∃ role,(rolesOf db).filter (fun r => r.name==roleName)=[role] ∧
        Assigned db userId role.id db' := by
  refine (steps_getRoleByName roleName).bind fun found db₁ h₁ => ?_
  obtain ⟨rfl,hfound⟩ := h₁
  cases found with
  | none => exact steps_raise _ _
  | some role =>
    exact (steps_assignRoleToUser userId role.id).mono fun _ _ h => ⟨role,hfound role rfl,h⟩

/-- An assigned role is committed with its audit row. -/
theorem finishes_assignRole {client : ClientRequest} {context : UserContext}
    {claims : AccessTokenClaims} {target : UUID} {payload : AssignRoleRequest}
    (hrequest : client.request=.assignRole (some target) (some payload))
    (h : Contextual client c context claims db) :
    Finishes (Endpoints.assignRole client context target payload) c db (Answered client c) := by
  refine (steps_ensurePermission _ _).finish (fun _ db₁ h₁ => ?_) .failed
  obtain ⟨rfl,hpermission⟩ := h₁
  refine (steps_getUserById target).finish (fun user db₂ h₂ => ?_) .failed
  obtain ⟨rfl,huser,hid⟩ := h₂
  refine (steps_assignRoleByName target payload.roleName).finish (fun _ db₃ h₃ => ?_) .failed
  obtain ⟨role,hrole,hassigned⟩ := h₃
  refine (steps_logEvent _ _ _ _ _ _ _).finish (fun _ db₄ h₄ => ?_) .failed
  exact finishes_commit (.granted _ context claims target payload db₄
    ⟨hrequest,db₂,db₃,role,h,hpermission,⟨user,huser,hid⟩,hrole,hassigned,h₄.2⟩)

/-- How every request ends. -/
theorem finishes_respond (client : ClientRequest) :
    Finishes (respond client) db db (Answered client db) := by
  have hread : ∀ (f : UserContext → Response),
      (∀ context,Readable context client.request) →
        Finishes ((Endpoints.getCurrentContext client).bind fun context => .pure (f context))
          db db (Answered client db) := by
    intro f hreadable
    refine (steps_getCurrentContext client).finish (fun context db₁ h₁ => ?_) .failed
    obtain ⟨claims,hcontext⟩ := h₁
    have hdone : Steps (.pure (f context) : Action Response) db db₁ fun _ _ => True :=
      steps_pure trivial
    exact hdone.uncommitted (fun response _ _ => .read response context claims db₁ hcontext
      (hreadable context)) .failed
  unfold respond
  cases hrequest : client.request with
  | me => exact hread Endpoints.me (by simp [hrequest,Readable])
  | myRoles => exact hread (fun context => .roles context.roles) (by simp [hrequest,Readable])
  | myPermissions => exact hread Endpoints.myPermissions (by simp [hrequest,Readable])
  | myProfile =>
    refine (steps_getCurrentContext client).finish (fun context db₁ h₁ => ?_) .failed
    obtain ⟨claims,hcontext⟩ := h₁
    have hprofile : Steps (Endpoints.myProfile context) db db₁ fun _ _ => True :=
      (steps_ensurePermission _ _).bind fun _ _ _ => steps_pure trivial
    exact hprofile.uncommitted (fun response _ _ => .read response context claims db₁ hcontext
      (by simp [hrequest,Readable])) .failed
  | getUser userId =>
    refine (steps_getCurrentContext client).finish (fun context db₁ h₁ => ?_) .failed
    obtain ⟨claims,hcontext⟩ := h₁
    have huser : Steps ((Endpoints.validated userId).bind (Endpoints.getUser context)) db db₁
        fun _ _ => permissionUsersRead∈context.permissions := by
      refine (steps_validated userId).bind fun target db₂ _ => ?_
      refine (steps_ensurePermission _ _).bind fun _ db₃ h₃ => ?_
      refine (steps_getUserById target).bind fun user db₄ _ => ?_
      exact steps_pure h₃.2
    exact huser.uncommitted (fun response _ h => .read response context claims db₁ hcontext
      (by simpa [hrequest,Readable] using h)) .failed
  | updateProfile payload =>
    refine (steps_rateLimit client.limited).finish (fun _ db₁ h₁ => ?_) .failed
    subst h₁
    refine (steps_getCurrentContext client).finish (fun context db₂ h₂ => ?_) .failed
    obtain ⟨claims,hcontext⟩ := h₂
    refine (steps_validated payload).finish (fun body db₃ h₃ => ?_) .failed
    obtain ⟨rfl,hbody⟩ := h₃
    exact finishes_updateProfile (by rw [hrequest,hbody]) hcontext
  | assignRole userId payload =>
    refine (steps_rateLimit client.limited).finish (fun _ db₁ h₁ => ?_) .failed
    subst h₁
    refine (steps_getCurrentContext client).finish (fun context db₂ h₂ => ?_) .failed
    obtain ⟨claims,hcontext⟩ := h₂
    refine (steps_validated userId).finish (fun target db₃ h₃ => ?_) .failed
    obtain ⟨rfl,htarget⟩ := h₃
    refine (steps_validated payload).finish (fun body db₄ h₄ => ?_) .failed
    obtain ⟨rfl,hbody⟩ := h₄
    exact finishes_assignRole (by rw [hrequest,htarget,hbody]) hcontext

/-- How every request to the service ends. -/
theorem answered (s : ServerState) (client : ClientRequest) :
    Answered client s.db (s.serve client).1 (s.next (.call client)).db :=
  finishes_respond client s.world ⟨s.draws,rfl⟩

end Answers

section Seeds

open RBACRepository RBACService

variable {c db : Tables} {n : ℕ}

/-- The seeded roles. -/
def seedRoles (n : ℕ) : List Role :=
  [⟨⟨n⟩,roleUser,"Default user role"⟩,⟨⟨n+1⟩,roleAdmin,"Administrative role"⟩]

/-- The seeded permissions. -/
def seedPermissions (n : ℕ) : List Permission :=
  [⟨⟨n+2⟩,permissionProfileReadSelf,"Read own profile"⟩,
    ⟨⟨n+3⟩,permissionProfileWriteSelf,"Update own profile"⟩,
    ⟨⟨n+4⟩,permissionUsersRead,"Read user entities"⟩,
    ⟨⟨n+5⟩,permissionUsersWrite,"Update user entities"⟩,
    ⟨⟨n+6⟩,permissionRolesAssign,"Assign roles to users"⟩]

/-- The permissions in the seeded roles. -/
def seedRolePermissions (n : ℕ) : List RolePermission :=
  [⟨⟨n⟩,⟨n+2⟩⟩,⟨⟨n⟩,⟨n+3⟩⟩,⟨⟨n+1⟩,⟨n+2⟩⟩,⟨⟨n+1⟩,⟨n+3⟩⟩,⟨⟨n+1⟩,⟨n+4⟩⟩,⟨⟨n+1⟩,⟨n+5⟩⟩,
    ⟨⟨n+1⟩,⟨n+6⟩⟩]

/-- Roles, permissions and their links are the seeded ones. -/
structure Seeded (n : ℕ) (db : Tables) : Prop where
  /-- The roles. -/
  roles : rolesOf db=seedRoles n
  /-- The permissions. -/
  permissions : permissionsOf db=seedPermissions n
  /-- The links. -/
  rolePermissions : rolePermissionsOf db=seedRolePermissions n

/-- The other tables keep the seeds. -/
theorem Seeded.put (h : Seeded n db) {t : Table} {rows : List (Row t)}
    (ht : t≠.roles ∧ t≠.permissions ∧ t≠.rolePermissions) : Seeded n (put db t rows) := by
  obtain ⟨hroles,hpermissions,hlinks⟩ := ht
  constructor
  · rw [rolesOf,put_of_ne rows hroles.symm]
    exact h.roles
  · rw [permissionsOf,put_of_ne rows hpermissions.symm]
    exact h.permissions
  · rw [rolePermissionsOf,put_of_ne rows hlinks.symm]
    exact h.rolePermissions

/-- Rows outside the seeded tables leave them seeded. -/
theorem Seeded.append (h : Seeded n db) {t : Table} {row : Row t}
    (ht : t≠.roles ∧ t≠.permissions ∧ t≠.rolePermissions) : Seeded n (append db t row) :=
  h.put ht

/-- A role found by its name is a seeded one. -/
theorem Seeded.role_of_name (h : Seeded n db) {roleName : String} {role : Role}
    (hrole : (rolesOf db).filter (fun r => r.name==roleName)=[role]) :
    role∈seedRoles n ∧ role.name=roleName := by
  have hmem : role∈(rolesOf db).filter fun r => r.name==roleName := by
    rw [hrole]
    exact List.mem_singleton_self _
  rw [h.roles] at hmem
  obtain ⟨hseed,hname⟩ := List.mem_filter.mp hmem
  exact ⟨hseed,by simpa using hname⟩

/-- The only role of the default name is the seeded one. -/
theorem Seeded.default_role (h : Seeded n db) {role : Role}
    (hrole : (rolesOf db).filter (fun r => r.name==roleUser)=[role]) :
    role=⟨⟨n⟩,roleUser,"Default user role"⟩ := by
  obtain ⟨hseed,hname⟩ := h.role_of_name hrole
  rcases List.mem_cons.mp hseed with rfl | hadmin
  · rfl
  · obtain rfl := List.mem_singleton.mp hadmin
    have hother : roleAdmin≠roleUser := by
      decide
    exact absurd hname hother

/-- The seeded roles and permissions come down to two kinds of links. -/
theorem Seeded.mem_permissionNamesForUser (h : Seeded n db) {userId : UUID} {name : String} :
    name∈permissionNamesForUser db userId ↔
      (UserRole.mk userId ⟨n⟩∈userRolesOf db ∧
        name∈[permissionProfileReadSelf,permissionProfileWriteSelf]) ∨
      (UserRole.mk userId ⟨n+1⟩∈userRolesOf db ∧
        name∈[permissionProfileReadSelf,permissionProfileWriteSelf,permissionUsersRead,
          permissionUsersWrite,permissionRolesAssign]) := by
  rw [UserRecords.mem_permissionNamesForUser,h.roles,h.permissions,h.rolePermissions]
  constructor
  · rintro ⟨permission,hp,part,hpart,role,hrole,link,hlink,h₁,h₂,h₃,rfl,rfl⟩
    have hmem : UserRole.mk link.userId part.roleId∈userRolesOf db := by
      rw [←h₂,←h₃]
      exact hlink
    have hadmin : permission.name∈[permissionProfileReadSelf,permissionProfileWriteSelf,
        permissionUsersRead,permissionUsersWrite,permissionRolesAssign] := by
      simp only [seedPermissions,List.mem_cons,List.not_mem_nil,or_false] at hp
      rcases hp with rfl | rfl | rfl | rfl | rfl <;> simp
    have hself : permission.id=⟨n+2⟩ ∨ permission.id=⟨n+3⟩ →
        permission.name∈[permissionProfileReadSelf,permissionProfileWriteSelf] := by
      intro hid
      simp only [seedPermissions,List.mem_cons,List.not_mem_nil,or_false] at hp
      rcases hp with rfl | rfl | rfl | rfl | rfl <;> simp at hid ⊢
    have hrole : part.roleId=⟨n⟩ ∧ (part.permissionId=⟨n+2⟩ ∨ part.permissionId=⟨n+3⟩) ∨
        part.roleId=⟨n+1⟩ := by
      simp only [seedRolePermissions,List.mem_cons,List.not_mem_nil,or_false] at hpart
      rcases hpart with rfl | rfl | rfl | rfl | rfl | rfl | rfl <;> simp
    rcases hrole with ⟨hroleId,hid⟩ | hroleId
    · rw [hroleId] at hmem
      rw [h₁] at hid
      exact .inl ⟨hmem,hself hid⟩
    · rw [hroleId] at hmem
      exact .inr ⟨hmem,hadmin⟩
  · have hjoin : ∀ (role : Role) (permission : Permission),role∈seedRoles n →
        permission∈seedPermissions n → ⟨role.id,permission.id⟩∈seedRolePermissions n →
          UserRole.mk userId role.id∈userRolesOf db →
            ∃ p∈seedPermissions n,∃ part∈seedRolePermissions n,∃ r∈seedRoles n,
              ∃ link∈userRolesOf db,part.permissionId=p.id ∧ r.id=part.roleId ∧
                link.roleId=r.id ∧ link.userId=userId ∧ p.name=permission.name :=
      fun role permission hr hp hpart hlink =>
        ⟨permission,hp,_,hpart,role,hr,_,hlink,rfl,rfl,rfl,rfl,rfl⟩
    rintro (⟨hlink,hname⟩ | ⟨hlink,hname⟩)
    · have huser := hjoin ⟨⟨n⟩,roleUser,"Default user role"⟩
      simp only [List.mem_cons,List.not_mem_nil,or_false] at hname
      rcases hname with rfl | rfl
      · exact huser ⟨⟨n+2⟩,permissionProfileReadSelf,"Read own profile"⟩ (by simp [seedRoles]) (by simp [seedPermissions])
          (by simp [seedRolePermissions]) hlink
      · exact huser ⟨⟨n+3⟩,permissionProfileWriteSelf,"Update own profile"⟩ (by simp [seedRoles])
          (by simp [seedPermissions]) (by simp [seedRolePermissions]) hlink
    · have hadmin := hjoin ⟨⟨n+1⟩,roleAdmin,"Administrative role"⟩
      simp only [List.mem_cons,List.not_mem_nil,or_false] at hname
      rcases hname with rfl | rfl | rfl | rfl | rfl
      · exact hadmin ⟨⟨n+2⟩,permissionProfileReadSelf,"Read own profile"⟩ (by simp [seedRoles])
          (by simp [seedPermissions]) (by simp [seedRolePermissions]) hlink
      · exact hadmin ⟨⟨n+3⟩,permissionProfileWriteSelf,"Update own profile"⟩ (by simp [seedRoles])
          (by simp [seedPermissions]) (by simp [seedRolePermissions]) hlink
      · exact hadmin ⟨⟨n+4⟩,permissionUsersRead,"Read user entities"⟩ (by simp [seedRoles])
          (by simp [seedPermissions]) (by simp [seedRolePermissions]) hlink
      · exact hadmin ⟨⟨n+5⟩,permissionUsersWrite,"Update user entities"⟩ (by simp [seedRoles])
          (by simp [seedPermissions]) (by simp [seedRolePermissions]) hlink
      · exact hadmin ⟨⟨n+6⟩,permissionRolesAssign,"Assign roles to users"⟩ (by simp [seedRoles])
          (by simp [seedPermissions]) (by simp [seedRolePermissions]) hlink

/-- A run continues from the end of its first part. -/
theorem run_sequence {α β : Type} {p : Action α} {f : α → Action β} {w w' : World} {a : α}
    {r : Except Failure β×World} (hp : p.run World.perform w=(.ok a,w'))
    (hf : (f a).run World.perform w'=r) : (p.bind f).run World.perform w=r := by
  rw [Program.run_bind,hp]
  exact hf

/-- An accepted row is written. -/
theorem run_insert {t : Table} {row : Row t} (h : Accepted db t row) :
    ((add t row).bind fun _ => flush).run World.perform ⟨n,⟨c,db⟩,[]⟩=
      (.ok (),⟨n,⟨c,append db t row⟩,[]⟩) := by
  have hinsert : (⟨c,db⟩ : Transaction userSchema).insertRow t row=
      (.inserted,⟨c,append db t row⟩) := by
    have hno : (db t).any (conflict t row)=false :=
      List.any_eq_false.mpr fun other hother => by simp [h.conflict other hother]
    simp only [Transaction.insertRow]
    rw [if_pos h.valid,if_neg (by simp [hno])]
    rfl
  have hwritten : writeAll [.add t row] ⟨c,db⟩=.ok ⟨c,append db t row⟩ := by
    simp only [writeAll,write,hinsert]
  have hflush : World.flush ⟨n,⟨c,db⟩,[.add t row]⟩=
      (.ok (),⟨n,⟨c,append db t row⟩,[]⟩) := by
    simp only [World.flush,hwritten]
  have hrun : ((add t row).bind fun _ => flush).run World.perform ⟨n,⟨c,db⟩,[]⟩=
      (raiseFailed (World.flush ⟨n,⟨c,db⟩,[.add t row]⟩).1).run World.perform
        (World.flush ⟨n,⟨c,db⟩,[.add t row]⟩).2 := rfl
  rw [hrun,hflush]
  rfl

/-- A SELECT on nothing unflushed returns the matching rows. -/
theorem run_select (t : Table) (q : Row t → Bool) :
    (select t q).run World.perform ⟨n,⟨c,db⟩,[]⟩=(.ok ((db t).filter q),⟨n,⟨c,db⟩,[]⟩) := rfl

/-- A query for at most one row. -/
theorem run_one (t : Table) {q : Row t → Bool} (found : Option (Row t))
    (h : (db t).filter q=found.toList) :
    ((select t q).bind scalarOneOrNone).run World.perform ⟨n,⟨c,db⟩,[]⟩=
      (.ok found,⟨n,⟨c,db⟩,[]⟩) := by
  refine run_sequence (run_select t q) ?_
  rw [h]
  cases found <;> rfl

/-- A row whose identifier is drawn at its flush. -/
theorem run_create (t : Table) (row : UUID → Row t) (h : Accepted db t (row ⟨n⟩)) :
    (uuid4.bind fun id => (add t (row id)).bind fun _ => flush.bind fun _ =>
      (.pure (row id) : Action (Row t))).run World.perform ⟨n,⟨c,db⟩,[]⟩=
        (.ok (row ⟨n⟩),⟨n+1,⟨c,append db t (row ⟨n⟩)⟩,[]⟩) := by
  have hdraw : uuid4.run World.perform ⟨n,⟨c,db⟩,[]⟩=(.ok ⟨n⟩,⟨n+1,⟨c,db⟩,[]⟩) := rfl
  refine run_sequence hdraw ?_
  rw [←Program.bind_assoc]
  exact run_sequence (run_insert h) rfl

/-- A role that exists is returned. -/
theorem run_getOrCreateRole_known {name description : String} {role : Role}
    (h : (rolesOf db).filter (fun r => r.name==name)=[role]) :
    (getOrCreateRole name description).run World.perform ⟨n,⟨c,db⟩,[]⟩=
      (.ok role,⟨n,⟨c,db⟩,[]⟩) :=
  run_sequence (run_one .roles (some role) h) rfl

/-- A missing role is created under a drawn id. -/
theorem run_getOrCreateRole_new {name description : String}
    (h : (rolesOf db).filter (fun r => r.name==name)=[])
    (haccepted : Accepted db .roles ⟨⟨n⟩,name,description⟩) :
    (getOrCreateRole name description).run World.perform ⟨n,⟨c,db⟩,[]⟩=
      (.ok ⟨⟨n⟩,name,description⟩,⟨n+1,⟨c,append db .roles ⟨⟨n⟩,name,description⟩⟩,[]⟩) :=
  run_sequence (run_one .roles none h)
    (run_create .roles (fun id => ⟨id,name,description⟩) haccepted)

/-- A permission that exists is returned. -/
theorem run_getOrCreatePermission_known {name description : String} {permission : Permission}
    (h : (permissionsOf db).filter (fun r => r.name==name)=[permission]) :
    (getOrCreatePermission name description).run World.perform ⟨n,⟨c,db⟩,[]⟩=
      (.ok permission,⟨n,⟨c,db⟩,[]⟩) :=
  run_sequence (run_one .permissions (some permission) h) rfl

/-- A missing permission is created under a drawn id. -/
theorem run_getOrCreatePermission_new {name description : String}
    (h : (permissionsOf db).filter (fun r => r.name==name)=[])
    (haccepted : Accepted db .permissions ⟨⟨n⟩,name,description⟩) :
    (getOrCreatePermission name description).run World.perform ⟨n,⟨c,db⟩,[]⟩=
      (.ok ⟨⟨n⟩,name,description⟩,⟨n+1,⟨c,append db .permissions ⟨⟨n⟩,name,description⟩⟩,[]⟩) :=
  run_sequence (run_one .permissions none h)
    (run_create .permissions (fun id => ⟨id,name,description⟩) haccepted)

/-- A link that exists is left alone. -/
theorem run_ensureRolePermission_known {roleId permissionId : UUID}
    (h : (rolePermissionsOf db).filter (fun r => r.roleId==roleId && r.permissionId==permissionId)=
      [⟨roleId,permissionId⟩]) :
    (ensureRolePermission roleId permissionId).run World.perform ⟨n,⟨c,db⟩,[]⟩=
      (.ok (),⟨n,⟨c,db⟩,[]⟩) := by
  refine run_sequence (run_select .rolePermissions _) ?_
  rw [show (db .rolePermissions).filter
    (fun r => r.roleId==roleId && r.permissionId==permissionId)=[⟨roleId,permissionId⟩] from h]
  rfl

/-- A missing link is created. -/
theorem run_ensureRolePermission_new {roleId permissionId : UUID}
    (h : (rolePermissionsOf db).filter (fun r => r.roleId==roleId && r.permissionId==permissionId)=
      [])
    (haccepted : Accepted db .rolePermissions ⟨roleId,permissionId⟩) :
    (ensureRolePermission roleId permissionId).run World.perform ⟨n,⟨c,db⟩,[]⟩=
      (.ok (),⟨n,⟨c,append db .rolePermissions ⟨roleId,permissionId⟩⟩,[]⟩) := by
  refine run_sequence (run_select .rolePermissions _) ?_
  rw [show (db .rolePermissions).filter
    (fun r => r.roleId==roleId && r.permissionId==permissionId)=[] from h]
  exact run_insert haccepted

/-- A start on seeded tables changes nothing. -/
theorem restart_seeded {s : ServerState} {m : ℕ} (h : Seeded m s.db) :
    s.next .restart=s := by
  have hrole : ∀ name role,(seedRoles m).filter (fun r => r.name==name)=[role] →
      ∀ description,(getOrCreateRole name description).run World.perform ⟨s.draws,⟨s.db,s.db⟩,[]⟩=
        (.ok role,⟨s.draws,⟨s.db,s.db⟩,[]⟩) := fun name role hname description =>
    run_getOrCreateRole_known (by rw [h.roles]; exact hname)
  have hpermission : ∀ name permission,
      (seedPermissions m).filter (fun r => r.name==name)=[permission] → ∀ description,
        (getOrCreatePermission name description).run World.perform ⟨s.draws,⟨s.db,s.db⟩,[]⟩=
          (.ok permission,⟨s.draws,⟨s.db,s.db⟩,[]⟩) := fun name permission hname description =>
    run_getOrCreatePermission_known (by rw [h.permissions]; exact hname)
  have hlink : ∀ roleId permissionId,(seedRolePermissions m).filter
      (fun r => r.roleId==roleId && r.permissionId==permissionId)=[⟨roleId,permissionId⟩] →
        (ensureRolePermission roleId permissionId).run World.perform ⟨s.draws,⟨s.db,s.db⟩,[]⟩=
          (.ok (),⟨s.draws,⟨s.db,s.db⟩,[]⟩) := fun roleId permissionId hlinked =>
    run_ensureRolePermission_known (by rw [h.rolePermissions]; exact hlinked)
  have hseed : ensureSeedData.run World.perform ⟨s.draws,⟨s.db,s.db⟩,[]⟩=
      (.ok (),⟨s.draws,⟨s.db,s.db⟩,[]⟩) := by
    refine run_sequence (hrole roleUser _ rfl _) ?_
    refine run_sequence (hrole roleAdmin _ rfl _) ?_
    refine run_sequence (hpermission permissionProfileReadSelf _ rfl _) ?_
    refine run_sequence (hpermission permissionProfileWriteSelf _ rfl _) ?_
    refine run_sequence (hpermission permissionUsersRead _ rfl _) ?_
    refine run_sequence (hpermission permissionUsersWrite _ rfl _) ?_
    refine run_sequence (hpermission permissionRolesAssign _ rfl _) ?_
    refine run_sequence (hlink _ _ (by simp [seedRolePermissions])) ?_
    refine run_sequence (hlink _ _ (by simp [seedRolePermissions])) ?_
    refine run_sequence (hlink _ _ (by simp [seedRolePermissions])) ?_
    refine run_sequence (hlink _ _ (by simp [seedRolePermissions])) ?_
    refine run_sequence (hlink _ _ (by simp [seedRolePermissions])) ?_
    refine run_sequence (hlink _ _ (by simp [seedRolePermissions])) ?_
    exact run_sequence (hlink _ _ (by simp [seedRolePermissions])) rfl
  have hstart : startUp.run World.perform s.world=
      (.ok (),⟨s.draws,⟨s.db,s.db⟩,[]⟩) := run_sequence hseed rfl
  show ServerState.mk (startUp.run World.perform s.world).2.draws
    (startUp.run World.perform s.world).2.data.committed=s
  rw [hstart]

/-- Add rows to a table, one after another. -/
def appendAll (db : Tables) (t : Table) (rows : List (Row t)) : Tables :=
  rows.foldl (fun db row => append db t row) db

/-- Appending rows one by one appends the list. -/
theorem appendAll_eq (db : Tables) (t : Table) (rows : List (Row t)) :
    appendAll db t rows=put db t (db t++rows) := by
  induction rows generalizing db with
  | nil =>
    rw [List.append_nil]
    exact (Function.update_eq_self t db).symm
  | cons row rest ih =>
    have hrest : appendAll db t (row::rest)=appendAll (append db t row) t rest := rfl
    rw [hrest,ih,append_self,List.append_assoc]
    exact Function.update_idem _ _ _

/-- The tables after the first start. -/
def seededTables (n : ℕ) : Tables :=
  put (put (put emptyTables .roles (seedRoles n)) .permissions (seedPermissions n))
    .rolePermissions (seedRolePermissions n)

/-- The seeded tables are seeded. -/
theorem seeded_seededTables (n : ℕ) : Seeded n (seededTables n) := by
  constructor <;> simp [seededTables]

/-- The first start fills the empty tables. -/
theorem freshService_db (n : ℕ) : (freshService n).db=seededTables n := by
  have hrole : ∀ {db : Tables} {m : ℕ} {name description : String},
      (∀ r∈rolesOf db,r.name≠name ∧ r.id≠⟨m⟩) →
      (decide (name.length≤64) && decide (description.length≤255))=true →
        (getOrCreateRole name description).run World.perform ⟨m,⟨emptyTables,db⟩,[]⟩=
          (.ok ⟨⟨m⟩,name,description⟩,
            ⟨m+1,⟨emptyTables,append db .roles ⟨⟨m⟩,name,description⟩⟩,[]⟩) := by
    intro db m name description hnew hvalid
    refine run_getOrCreateRole_new ?_ ⟨hvalid,fun other hother => ?_⟩
    · exact List.filter_eq_nil_iff.mpr fun r hr => by simp [(hnew r hr).1]
    · obtain ⟨hname,hid⟩ := hnew other hother
      simp [conflict,Ne.symm hname,Ne.symm hid]
  have hpermission : ∀ {db : Tables} {m : ℕ} {name description : String},
      (∀ r∈permissionsOf db,r.name≠name ∧ r.id≠⟨m⟩) →
      (decide (name.length≤128) && decide (description.length≤255))=true →
        (getOrCreatePermission name description).run World.perform ⟨m,⟨emptyTables,db⟩,[]⟩=
          (.ok ⟨⟨m⟩,name,description⟩,
            ⟨m+1,⟨emptyTables,append db .permissions ⟨⟨m⟩,name,description⟩⟩,[]⟩) := by
    intro db m name description hnew hvalid
    refine run_getOrCreatePermission_new ?_ ⟨hvalid,fun other hother => ?_⟩
    · exact List.filter_eq_nil_iff.mpr fun r hr => by simp [(hnew r hr).1]
    · obtain ⟨hname,hid⟩ := hnew other hother
      simp [conflict,Ne.symm hname,Ne.symm hid]
  have hlink : ∀ {db : Tables} {m : ℕ} {roleId permissionId : UUID},
      RolePermission.mk roleId permissionId∉rolePermissionsOf db →
        (ensureRolePermission roleId permissionId).run World.perform ⟨m,⟨emptyTables,db⟩,[]⟩=
          (.ok (),⟨m,⟨emptyTables,append db .rolePermissions ⟨roleId,permissionId⟩⟩,[]⟩) := by
    intro db m roleId permissionId hnew
    have hother : ∀ r∈rolePermissionsOf db,¬(r.roleId=roleId ∧ r.permissionId=permissionId) := by
      rintro r hr ⟨rfl,rfl⟩
      exact hnew hr
    refine run_ensureRolePermission_new ?_ ⟨rfl,fun other hmem => ?_⟩
    · exact List.filter_eq_nil_iff.mpr fun r hr => by simpa using hother r hr
    · have hno := hother other hmem
      simp only [conflict,Bool.and_eq_false_iff,beq_eq_false_iff_ne,ne_eq]
      tauto
  have hrun : ensureSeedData.run World.perform ⟨n,⟨emptyTables,emptyTables⟩,[]⟩=
      (.ok (),⟨n+7,⟨emptyTables,appendAll (appendAll (appendAll emptyTables .roles (seedRoles n))
        .permissions (seedPermissions n)) .rolePermissions (seedRolePermissions n)⟩,[]⟩) := by
    refine run_sequence (hrole (by simp [emptyTables]) rfl) ?_
    refine run_sequence (hrole (by simp [emptyTables,roleUser,roleAdmin]) rfl) ?_
    refine run_sequence (hpermission (by simp [emptyTables]) rfl) ?_
    refine run_sequence (hpermission (by simp [emptyTables,Nat.add_assoc,permissionProfileReadSelf,
      permissionProfileWriteSelf]) rfl) ?_
    refine run_sequence (hpermission (by simp [emptyTables,Nat.add_assoc,permissionProfileReadSelf,
      permissionProfileWriteSelf,permissionUsersRead]) rfl) ?_
    refine run_sequence (hpermission (by simp [emptyTables,Nat.add_assoc,permissionProfileReadSelf,
      permissionProfileWriteSelf,permissionUsersRead,permissionUsersWrite]) rfl) ?_
    refine run_sequence (hpermission (by simp [emptyTables,Nat.add_assoc,permissionProfileReadSelf,
      permissionProfileWriteSelf,permissionUsersRead,permissionUsersWrite,
      permissionRolesAssign]) rfl) ?_
    refine run_sequence (hlink (by simp [emptyTables,Nat.add_assoc])) ?_
    refine run_sequence (hlink (by simp [emptyTables,Nat.add_assoc])) ?_
    refine run_sequence (hlink (by simp [emptyTables,Nat.add_assoc])) ?_
    refine run_sequence (hlink (by simp [emptyTables,Nat.add_assoc])) ?_
    refine run_sequence (hlink (by simp [emptyTables,Nat.add_assoc])) ?_
    refine run_sequence (hlink (by simp [emptyTables,Nat.add_assoc])) ?_
    exact run_sequence (hlink (by simp [emptyTables,Nat.add_assoc])) rfl
  have htables : appendAll (appendAll (appendAll emptyTables .roles (seedRoles n))
      .permissions (seedPermissions n)) .rolePermissions (seedRolePermissions n)=
        seededTables n := by
    rw [appendAll_eq,appendAll_eq,appendAll_eq]
    simp [seededTables,emptyTables]
  rw [htables] at hrun
  have hstart : startUp.run World.perform ⟨n,⟨emptyTables,emptyTables⟩,[]⟩=
      (.ok (),⟨n+7,⟨seededTables n,seededTables n⟩,[]⟩) := run_sequence hrun rfl
  have hcommitted := congrArg (fun r : Except Failure Unit×World => r.2.data.committed) hstart
  exact hcommitted

end Seeds

end BackendPlatform.UserSteps
