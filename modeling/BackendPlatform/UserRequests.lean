import BackendPlatform.UserRecords

/-!
# Repositories, services and endpoints of the user service

Every request is answered in the context of its subject, and the first one
creates the user with its profile, default role and audit row. The context is
committed if the session still has new or changed objects; writing endpoints
commit once more. Requests run one after another, and a restart of the service
seeds roles and permissions again.
-/

set_option autoImplicit false

namespace BackendPlatform.UserRequests

open ProgramTrees TransactionalTables
open AuthRecords (UUID)
open UserRecords

namespace UserRepository

/-- `get_by_id`. -/
def getById (userId : UUID) : Action (Option AppUser) := do
  scalarOneOrNone (←select .appUsers fun r => r.id==userId)

/-- `get_by_subject`. -/
def getBySubject (subject : String) : Action (Option AppUser) := do
  scalarOneOrNone (←select .appUsers fun r => r.externalSubject==subject)

/-- `create`, with the defaults of both tables. -/
def create (userId : UUID) (externalSubject : String) : Action AppUser := do
  let user : AppUser := ⟨userId,externalSubject,true⟩
  let profile : UserProfile := ⟨userId,none,"en-US","UTC",none⟩
  add .appUsers user
  add .userProfiles profile
  flush
  return user

end UserRepository

/-- The validated body of `PATCH /profiles/me`. -/
structure UpdateProfileRequest where
  /-- Displayed name. -/
  displayName : Option String
  /-- Locale. -/
  locale : String
  /-- Time zone. -/
  timezone : String
  /-- Address of the picture. -/
  avatarUrl : Option String
  /-- Length of the name. -/
  displayNameLength : ∀ name,displayName=some name → 1 ≤ name.length ∧ name.length ≤ 100
  /-- Length of the locale. -/
  localeLength : 2 ≤ locale.length ∧ locale.length ≤ 16
  /-- Length of the time zone. -/
  timezoneLength : 2 ≤ timezone.length ∧ timezone.length ≤ 64
  /-- Length of the address. -/
  avatarUrlLength : ∀ url,avatarUrl=some url → url.length ≤ 512

/-- The validated body of `POST /roles/users/{user_id}`. -/
structure AssignRoleRequest where
  /-- The role to assign. -/
  roleName : String
  /-- Its length. -/
  roleNameLength : 2 ≤ roleName.length ∧ roleName.length ≤ 64

namespace ProfileRepository

/-- `get_by_user_id`. -/
def getByUserId (userId : UUID) : Action (Option UserProfile) := do
  scalarOneOrNone (←select .userProfiles fun r => r.userId==userId)

/-- The profile with the attributes of an update. -/
def updated (payload : UpdateProfileRequest) (profile : UserProfile) : UserProfile :=
  {profile with
    displayName := payload.displayName
    locale := payload.locale
    timezone := payload.timezone
    avatarUrl := payload.avatarUrl}

/-- `update`. -/
def update (profile : UserProfile) (payload : UpdateProfileRequest) : Action UserProfile := do
  assign .userProfiles (fun r => r.userId==profile.userId) (updated payload)
  flush
  return updated payload profile

end ProfileRepository

namespace RBACRepository

/-- `get_role_by_name`. -/
def getRoleByName (roleName : String) : Action (Option Role) := do
  scalarOneOrNone (←select .roles fun r => r.name==roleName)

/-- `get_permission_by_name`. -/
def getPermissionByName (permissionName : String) : Action (Option Permission) := do
  scalarOneOrNone (←select .permissions fun r => r.name==permissionName)

/-- `create_role`; the id is drawn at the flush. -/
def createRole (name description : String) : Action Role := do
  let role : Role := ⟨←uuid4,name,description⟩
  add .roles role
  flush
  return role

/-- `create_permission`; the id is drawn at the flush. -/
def createPermission (name description : String) : Action Permission := do
  let permission : Permission := ⟨←uuid4,name,description⟩
  add .permissions permission
  flush
  return permission

/-- `ensure_role_permission`. -/
def ensureRolePermission (roleId permissionId : UUID) : Action Unit := do
  match ←scalarOneOrNone (←select .rolePermissions fun r =>
    r.roleId==roleId && r.permissionId==permissionId) with
  | some _ => return ()
  | none =>
    add .rolePermissions ⟨roleId,permissionId⟩
    flush

/-- `assign_role_to_user`. -/
def assignRoleToUser (userId roleId : UUID) : Action Unit := do
  match ←scalarOneOrNone (←select .userRoles fun r => r.userId==userId && r.roleId==roleId) with
  | some _ => return ()
  | none =>
    add .userRoles ⟨userId,roleId⟩
    flush

/-- `list_roles_for_user`. -/
def listRolesForUser (userId : UUID) : Action (List Role) :=
  .call (.selectRoles userId) raiseFailed

/-- `list_permission_names_for_user`. -/
def listPermissionNamesForUser (userId : UUID) : Action (List String) :=
  .call (.selectPermissionNames userId) raiseFailed

end RBACRepository

namespace AuditService

/-- `SENSITIVE_FIELDS`. -/
def sensitiveFields : List String :=
  ["password","token","access_token","refresh_token","secret"]

/-- `_sanitize_payload`; the field names of the service are ASCII. -/
def sanitizePayload (payload : List (String×PayloadValue)) : List (String×PayloadValue) :=
  payload.filter fun field => decide (field.1.toLower∉sensitiveFields)

/-- `log_event`. -/
def logEvent (eventType outcome : String) (actorUserId targetUserId : Option UUID)
    (ipAddress userAgent : Option String) (payload : List (String×PayloadValue)) :
    Action Unit := do
  add .auditEvents
    ⟨eventType,outcome,actorUserId,targetUserId,ipAddress,userAgent,sanitizePayload payload⟩
  flush

end AuditService

/-- `ROLE_USER`. -/
def roleUser : String := "user"

/-- `ROLE_ADMIN`. -/
def roleAdmin : String := "admin"

/-- `PERMISSION_PROFILE_READ_SELF`. -/
def permissionProfileReadSelf : String := "profile:read:self"

/-- `PERMISSION_PROFILE_WRITE_SELF`. -/
def permissionProfileWriteSelf : String := "profile:write:self"

/-- `PERMISSION_USERS_READ`. -/
def permissionUsersRead : String := "users:read"

/-- `PERMISSION_USERS_WRITE`. -/
def permissionUsersWrite : String := "users:write"

/-- `PERMISSION_ROLES_ASSIGN`. -/
def permissionRolesAssign : String := "roles:assign"

/-- `AUDIT_PROFILE_UPDATED`. -/
def auditProfileUpdated : String := "user.profile.updated"

/-- `AUDIT_ROLE_ASSIGNED`. -/
def auditRoleAssigned : String := "user.role.assigned"

/-- `AUDIT_USER_BOOTSTRAPPED`. -/
def auditUserBootstrapped : String := "user.bootstrap"

namespace RBACService

open RBACRepository

/-- `_get_or_create_role`. -/
def getOrCreateRole (roleName description : String) : Action Role := do
  match ←getRoleByName roleName with
  | some role => return role
  | none => createRole roleName description

/-- `_get_or_create_permission`. -/
def getOrCreatePermission (permissionName description : String) : Action Permission := do
  match ←getPermissionByName permissionName with
  | some permission => return permission
  | none => createPermission permissionName description

/-- The loop of `ensure_seed_data` over the permissions of the administrators. -/
def ensureRolePermissions (roleId : UUID) : List Permission → Action Unit
  | [] => return ()
  | permission::rest => do
    ensureRolePermission roleId permission.id
    ensureRolePermissions roleId rest

/-- `ensure_seed_data`. -/
def ensureSeedData : Action Unit := do
  let userRole ← getOrCreateRole roleUser "Default user role"
  let adminRole ← getOrCreateRole roleAdmin "Administrative role"
  let profileRead ← getOrCreatePermission permissionProfileReadSelf "Read own profile"
  let profileWrite ← getOrCreatePermission permissionProfileWriteSelf "Update own profile"
  let usersRead ← getOrCreatePermission permissionUsersRead "Read user entities"
  let usersWrite ← getOrCreatePermission permissionUsersWrite "Update user entities"
  let rolesAssign ← getOrCreatePermission permissionRolesAssign "Assign roles to users"
  ensureRolePermission userRole.id profileRead.id
  ensureRolePermission userRole.id profileWrite.id
  ensureRolePermissions adminRole.id
    [profileRead,profileWrite,usersRead,usersWrite,rolesAssign]

/-- `ensure_default_user_role`. -/
def ensureDefaultUserRole (userId : UUID) : Action Unit := do
  match ←getRoleByName roleUser with
  | none => throw (.runtimeError "RBAC seed is not initialized")
  | some role => assignRoleToUser userId role.id

/-- `assign_role_by_name`. -/
def assignRoleByName (userId : UUID) (roleName : String) : Action Unit := do
  match ←getRoleByName roleName with
  | none => throw (.badRequest "Unknown role")
  | some role => assignRoleToUser userId role.id

/-- `list_role_names_for_user`. -/
def listRoleNamesForUser (userId : UUID) : Action (List String) := do
  return (←listRolesForUser userId).map (·.name)

end RBACService

/-- `UserContext`. -/
structure UserContext where
  /-- The user. -/
  user : AppUser
  /-- Its profile. -/
  profile : UserProfile
  /-- Its roles. -/
  roles : List String
  /-- Its permissions. -/
  permissions : List String

namespace UserService

/-- `bootstrap_from_subject`. -/
def bootstrapFromSubject (subject : UUID) (ipAddress userAgent : Option String) :
    Action AppUser := do
  match ←UserRepository.getBySubject subject.str with
  | some existing => return existing
  | none =>
    let user ← UserRepository.create subject subject.str
    RBACService.ensureDefaultUserRole user.id
    AuditService.logEvent auditUserBootstrapped "success" (some user.id) (some user.id)
      ipAddress userAgent []
    return user

/-- `context_for_subject`. -/
def contextForSubject (subject : UUID) (ipAddress userAgent : Option String) :
    Action UserContext := do
  let user ← bootstrapFromSubject subject ipAddress userAgent
  match ←ProfileRepository.getByUserId user.id with
  | none => throw (.notFound "User profile not found")
  | some profile =>
    let roles ← RBACService.listRoleNamesForUser user.id
    let permissions ← RBACRepository.listPermissionNamesForUser user.id
    return ⟨user,profile,roles,permissions⟩

/-- `get_user_by_id`. -/
def getUserById (userId : UUID) : Action AppUser := do
  match ←UserRepository.getById userId with
  | none => throw (.notFound "User not found")
  | some user => return user

/-- `update_own_profile`. -/
def updateOwnProfile (userId actorUserId : UUID) (payload : UpdateProfileRequest)
    (ipAddress userAgent : Option String) : Action UserProfile := do
  match ←ProfileRepository.getByUserId userId with
  | none => throw (.notFound "User profile not found")
  | some profile =>
    let updated ← ProfileRepository.update profile payload
    AuditService.logEvent auditProfileUpdated "success" (some actorUserId) (some userId)
      ipAddress userAgent [("locale",.str payload.locale),("timezone",.str payload.timezone),
        ("has_avatar",.bool (payload.avatarUrl.any fun url => !url.isEmpty))]
    return updated

end UserService

/-- A request. Path parameters and bodies that fail validation are missing. -/
inductive Request where
  /-- `GET /users/me`. -/
  | me
  /-- `GET /users/{user_id}`. -/
  | getUser (userId : Option UUID)
  /-- `GET /profiles/me`. -/
  | myProfile
  /-- `PATCH /profiles/me`. -/
  | updateProfile (payload : Option UpdateProfileRequest)
  /-- `GET /roles/me`. -/
  | myRoles
  /-- `POST /roles/users/{user_id}`. -/
  | assignRole (userId : Option UUID) (payload : Option AssignRoleRequest)
  /-- `GET /permissions/me`. -/
  | myPermissions

/-- `AccessTokenClaims`. -/
structure AccessTokenClaims where
  /-- The subject. -/
  sub : UUID
  /-- The session. -/
  sid : UUID

/-- A request with what the checks outside the database answer. -/
structure ClientRequest where
  /-- The request. -/
  request : Request
  /-- The failure of the rate limiter, for the limited endpoints. -/
  limited : Option Failure
  /-- `extract_bearer_token` and `decode_access_token`. -/
  authorization : Except Failure AccessTokenClaims
  /-- The session of the token carries a revocation marker. -/
  sessionRevoked : Bool
  /-- `get_client_ip`. -/
  ipAddress : String
  /-- The `User-Agent` header. -/
  userAgent : Option String

/-- What a request returns. -/
inductive Response where
  /-- `UserMeResponse`. -/
  | me (userId externalSubject : String) (roles permissions : List String)
  /-- `UserResponse`. -/
  | user (userId externalSubject : String) (isActive : Bool)
  /-- `ProfileResponse`. -/
  | profile (userId : String) (displayName : Option String) (locale timezone : String)
      (avatarUrl : Option String)
  /-- `RolesResponse`. -/
  | roles (roles : List String)
  /-- `PermissionsResponse`. -/
  | permissions (permissions : List String)
  /-- `MessageResponse`. -/
  | message (message : String)
deriving DecidableEq

namespace Endpoints

/-- `ensure_permission`. -/
def ensurePermission (permissions : List String) (required : String) : Action Unit := do
  if required∉permissions then throw (.forbidden "Insufficient permissions")

/-- `ensure_access_session_active`, at the answer of Redis. -/
def ensureAccessSessionActive (sessionRevoked : Bool) : Action Unit := do
  if sessionRevoked then throw (.unauthorized "Access session revoked")

/-- `get_current_context`. -/
def getCurrentContext (c : ClientRequest) : Action UserContext := do
  match c.authorization with
  | .error failure => throw failure
  | .ok claims =>
    ensureAccessSessionActive c.sessionRevoked
    let context ← UserService.contextForSubject claims.sub (some c.ipAddress) c.userAgent
    if !context.user.isActive then throw (.unauthorized "Inactive user")
    if ←changed then commit
    return context

/-- `rate_limit_dependency`, at its answer. -/
def rateLimit (limited : Option Failure) : Action Unit := do
  match limited with
  | some failure => throw failure
  | none => return ()

/-- A validated parameter; validation comes after the dependencies. -/
def validated {α : Type} (parameter : Option α) : Action α := do
  match parameter with
  | none => throw .requestValidation
  | some value => return value

/-- `me`. -/
def me (context : UserContext) : Response :=
  .me context.user.id.str context.user.externalSubject context.roles
    (context.permissions.insertionSort fun a b => a≤b)

/-- `get_user`. -/
def getUser (context : UserContext) (userId : UUID) : Action Response := do
  ensurePermission context.permissions permissionUsersRead
  let user ← UserService.getUserById userId
  return .user user.id.str user.externalSubject user.isActive

/-- `my_profile`. -/
def myProfile (context : UserContext) : Action Response := do
  ensurePermission context.permissions permissionProfileReadSelf
  return .profile context.user.id.str context.profile.displayName context.profile.locale
    context.profile.timezone context.profile.avatarUrl

/-- `update_profile`. -/
def updateProfile (c : ClientRequest) (context : UserContext) (payload : UpdateProfileRequest) :
    Action Response := do
  ensurePermission context.permissions permissionProfileWriteSelf
  let updated ← UserService.updateOwnProfile context.user.id context.user.id payload
    (some c.ipAddress) c.userAgent
  commit
  return .profile updated.userId.str updated.displayName updated.locale updated.timezone
    updated.avatarUrl

/-- `assign_role`. -/
def assignRole (c : ClientRequest) (context : UserContext) (userId : UUID)
    (payload : AssignRoleRequest) : Action Response := do
  ensurePermission context.permissions permissionRolesAssign
  let _ ← UserService.getUserById userId
  RBACService.assignRoleByName userId payload.roleName
  AuditService.logEvent auditRoleAssigned "success" (some context.user.id) (some userId)
    (some c.ipAddress) c.userAgent [("role_name",.str payload.roleName)]
  commit
  return .message "Role assigned"

/-- `my_permissions`. -/
def myPermissions (context : UserContext) : Response :=
  .permissions (context.permissions.insertionSort fun a b => a≤b)

end Endpoints

open Endpoints in
/-- The answer to a request. -/
def respond (c : ClientRequest) : Action Response :=
  match c.request with
  | .me => do return me (←getCurrentContext c)
  | .getUser userId => do
    let context ← getCurrentContext c
    getUser context (←validated userId)
  | .myProfile => do myProfile (←getCurrentContext c)
  | .updateProfile payload => do
    rateLimit c.limited
    let context ← getCurrentContext c
    updateProfile c context (←validated payload)
  | .myRoles => do return .roles (←getCurrentContext c).roles
  | .assignRole userId payload => do
    rateLimit c.limited
    let context ← getCurrentContext c
    let target ← validated userId
    assignRole c context target (←validated payload)
  | .myPermissions => do return myPermissions (←getCurrentContext c)

/-- The start of the service. -/
def startUp : Action Unit := do
  RBACService.ensureSeedData
  commit

section Runs

/-- The committed database and the identifiers drawn so far. -/
structure ServerState where
  /-- How many identifiers have been drawn. -/
  draws : ℕ
  /-- The committed database. -/
  db : Tables

/-- What happens to the service. -/
inductive Input where
  /-- A request arrives. -/
  | call (client : ClientRequest)
  /-- The service is started again. -/
  | restart

namespace ServerState

/-- The session of a request. -/
def world (s : ServerState) : World := ⟨s.draws,⟨s.db,s.db⟩,[]⟩

/-- The run of one request; its session is closed without a commit. -/
def serve (client : ClientRequest) (s : ServerState) : Except Failure Response×World :=
  (respond client).run World.perform s.world

/-- The run of a start. -/
def started (s : ServerState) : Except Failure Unit×World := startUp.run World.perform s.world

/-- The state after one input. -/
def next (s : ServerState) : Input → ServerState
  | .call client => ⟨(s.serve client).2.draws,(s.serve client).2.data.committed⟩
  | .restart => ⟨s.started.2.draws,s.started.2.data.committed⟩

end ServerState

/-- Inputs with the states before them, latest first. -/
abbrev Trace := List (ServerState×Input)

/-- Runs whose inputs satisfy a condition on the state before them. -/
inductive Runs (C : ServerState → Input → Prop) (start : ServerState) :
    Trace → ServerState → Prop
  /-- Nothing has happened. -/
  | refl : Runs C start [] start
  /-- One more input. -/
  | step {trace : Trace} {s : ServerState} (input : Input) : Runs C start trace s → C s input →
      Runs C start ((s,input)::trace) (s.next input)

/-- An invariant that every allowed input keeps holds in every run. -/
theorem Runs.invariant {C : ServerState → Input → Prop} {start s : ServerState} {trace : Trace}
    (Inv : Trace → ServerState → Prop) (hstart : Inv [] start)
    (hstep : ∀ trace s input,Inv trace s → C s input → Inv ((s,input)::trace) (s.next input))
    (h : Runs C start trace s) : Inv trace s := by
  induction h with
  | refl => exact hstart
  | step input _ hc ih => exact hstep _ _ input ih hc

/-- Perform a list of inputs, checking the state before each of them. -/
def performAll (check : ServerState → Input → Bool) :
    List Input → Trace → ServerState → Option (Trace×ServerState)
  | [],trace,s => some (trace,s)
  | input::rest,trace,s =>
    if check s input then performAll check rest ((s,input)::trace) (s.next input) else none

theorem runs_of_performAll {check : ServerState → Input → Bool}
    {C : ServerState → Input → Prop} {start : ServerState} {inputs : List Input}
    {trace trace' : Trace} {s s' : ServerState} (hc : ∀ r input,check r input=true → C r input)
    (hs : Runs C start trace s) (h : performAll check inputs trace s=some (trace',s')) :
    Runs C start trace' s' := by
  induction inputs generalizing trace s with
  | nil =>
    cases h
    exact hs
  | cons input rest ih =>
    simp only [performAll] at h
    split at h
    · rename_i hcheck
      exact ih (.step input hs (hc _ _ hcheck)) h
    · cases h

/-- A database without any row. -/
def emptyTables : Tables := fun _ => []

/-- The service after its first start on an empty database. -/
def freshService (draws : ℕ) : ServerState := (ServerState.mk draws emptyTables).next .restart

end Runs

end BackendPlatform.UserRequests
