import BackendPlatform.AuthRecords
import Mathlib.Data.List.Sort
import Mathlib.Data.List.Dedup

/-!
# Records and sessions of the user service

Users with their profiles, roles, permissions and the links between them, and
audit events. A session collects added rows and changed attributes until the
next flush; queries flush first, a commit flushes and publishes. After a flush
nothing counts as new or changed any more.
-/

set_option autoImplicit false

namespace BackendPlatform.UserRecords

open ProgramTrees TransactionalTables
open AuthRecords (UUID fits)

section Records

/-- A row of `app_users`. -/
structure AppUser where
  /-- Primary key. -/
  id : UUID
  /-- The subject of the access tokens. -/
  externalSubject : String
  /-- The account is switched on. -/
  isActive : Bool
deriving DecidableEq

/-- A row of `user_profiles`. -/
structure UserProfile where
  /-- The owner. -/
  userId : UUID
  /-- Displayed name. -/
  displayName : Option String
  /-- Locale. -/
  locale : String
  /-- Time zone. -/
  timezone : String
  /-- Address of the picture. -/
  avatarUrl : Option String
deriving DecidableEq

/-- A row of `roles`. -/
structure Role where
  /-- Primary key. -/
  id : UUID
  /-- Unique name. -/
  name : String
  /-- Description. -/
  description : String
deriving DecidableEq

/-- A row of `permissions`. -/
structure Permission where
  /-- Primary key. -/
  id : UUID
  /-- Unique name. -/
  name : String
  /-- Description. -/
  description : String
deriving DecidableEq

/-- A row of `role_permissions`. -/
structure RolePermission where
  /-- The role. -/
  roleId : UUID
  /-- The permission it contains. -/
  permissionId : UUID
deriving DecidableEq

/-- A row of `user_roles`. -/
structure UserRole where
  /-- The user. -/
  userId : UUID
  /-- The role it holds. -/
  roleId : UUID
deriving DecidableEq

/-- A value of an audit payload. -/
inductive PayloadValue where
  /-- `None`. -/
  | none
  /-- A boolean. -/
  | bool (value : Bool)
  /-- A number. -/
  | int (value : ℤ)
  /-- A text. -/
  | str (value : String)
deriving DecidableEq

/-- A row of `audit_events`, without its own key, which no operation reads. -/
structure AuditEvent where
  /-- What happened. -/
  eventType : String
  /-- How it ended. -/
  outcome : String
  /-- Who did it. -/
  actorUserId : Option UUID
  /-- To whom. -/
  targetUserId : Option UUID
  /-- Client address. -/
  ipAddress : Option String
  /-- Client program. -/
  userAgent : Option String
  /-- Details. -/
  payload : List (String×PayloadValue)
deriving DecidableEq

/-- The tables. -/
inductive Table where
  /-- `app_users`. -/
  | appUsers
  /-- `user_profiles`. -/
  | userProfiles
  /-- `roles`. -/
  | roles
  /-- `permissions`. -/
  | permissions
  /-- `role_permissions`. -/
  | rolePermissions
  /-- `user_roles`. -/
  | userRoles
  /-- `audit_events`. -/
  | auditEvents
deriving DecidableEq

/-- The rows of a table. -/
abbrev Row : Table → Type
  | .appUsers => AppUser
  | .userProfiles => UserProfile
  | .roles => Role
  | .permissions => Permission
  | .rolePermissions => RolePermission
  | .userRoles => UserRole
  | .auditEvents => AuditEvent

/-- Column lengths; the text of a subject always fits its column. -/
def valid : (t : Table) → Row t → Bool
  | .userProfiles,r => fits 100 r.displayName && decide (r.locale.length≤16) &&
    decide (r.timezone.length≤64) && fits 512 r.avatarUrl
  | .roles,r => decide (r.name.length≤64) && decide (r.description.length≤255)
  | .permissions,r => decide (r.name.length≤128) && decide (r.description.length≤255)
  | .auditEvents,r => decide (r.eventType.length≤128) && decide (r.outcome.length≤16) &&
    fits 64 r.ipAddress && fits 512 r.userAgent
  | _,_ => true

/-- Primary keys and unique constraints. -/
def conflict : (t : Table) → Row t → Row t → Bool
  | .appUsers,a,b => a.id==b.id || a.externalSubject==b.externalSubject
  | .userProfiles,a,b => a.userId==b.userId
  | .roles,a,b => a.id==b.id || a.name==b.name
  | .permissions,a,b => a.id==b.id || a.name==b.name
  | .rolePermissions,a,b => a.roleId==b.roleId && a.permissionId==b.permissionId
  | .userRoles,a,b => a.userId==b.userId && a.roleId==b.roleId
  | .auditEvents,_,_ => false

/-- The database schema of the service. -/
abbrev userSchema : Schema := ⟨Table,Row,valid,conflict⟩

instance : DecidableEq userSchema.Table := inferInstanceAs (DecidableEq Table)

/-- The contents of all tables. -/
abbrev Tables := Database userSchema

/-- The users of a database. -/
abbrev appUsersOf (db : Tables) : List AppUser := db .appUsers

/-- The profiles of a database. -/
abbrev profilesOf (db : Tables) : List UserProfile := db .userProfiles

/-- The roles of a database. -/
abbrev rolesOf (db : Tables) : List Role := db .roles

/-- The permissions of a database. -/
abbrev permissionsOf (db : Tables) : List Permission := db .permissions

/-- The permissions in the roles of a database. -/
abbrev rolePermissionsOf (db : Tables) : List RolePermission := db .rolePermissions

/-- The roles of the users of a database. -/
abbrev userRolesOf (db : Tables) : List UserRole := db .userRoles

/-- The audit rows of a database. -/
abbrev auditEventsOf (db : Tables) : List AuditEvent := db .auditEvents

/-- `select(Role).join(UserRole).where(user_id).order_by(name)`. -/
def rolesForUser (db : Tables) (userId : UUID) : List Role :=
  ((rolesOf db).flatMap fun role => (userRolesOf db).flatMap fun link =>
    if link.roleId=role.id ∧ link.userId=userId then [role] else []).insertionSort
      fun a b => a.name≤b.name

/-- `select(Permission.name)` joined with its roles and their users,
`distinct()` and `order_by(name)`. -/
def permissionNamesForUser (db : Tables) (userId : UUID) : List String :=
  ((permissionsOf db).flatMap fun permission => (rolePermissionsOf db).flatMap fun part =>
    (rolesOf db).flatMap fun role => (userRolesOf db).flatMap fun link =>
      if part.permissionId=permission.id ∧ role.id=part.roleId ∧ link.roleId=role.id ∧
          link.userId=userId then [permission.name]
      else []).dedup.insertionSort fun a b => a≤b

/-- A permission of a user comes from a permission, a role that contains it and
a link to this role. -/
theorem mem_permissionNamesForUser {db : Tables} {userId : UUID} {name : String} :
    name∈permissionNamesForUser db userId ↔ ∃ permission∈permissionsOf db,
      ∃ part∈rolePermissionsOf db,∃ role∈rolesOf db,∃ link∈userRolesOf db,
        part.permissionId=permission.id ∧ role.id=part.roleId ∧ link.roleId=role.id ∧
          link.userId=userId ∧ permission.name=name := by
  unfold permissionNamesForUser
  rw [List.mem_insertionSort,List.mem_dedup]
  simp only [List.mem_flatMap]
  constructor
  · rintro ⟨permission,hp,part,hpart,role,hrole,link,hlink,hname⟩
    split at hname
    · rename_i hjoin
      obtain ⟨h₁,h₂,h₃,h₄⟩ := hjoin
      exact ⟨permission,hp,part,hpart,role,hrole,link,hlink,h₁,h₂,h₃,h₄,
        (List.mem_singleton.mp hname).symm⟩
    · exact absurd hname List.not_mem_nil
  · rintro ⟨permission,hp,part,hpart,role,hrole,link,hlink,h₁,h₂,h₃,h₄,rfl⟩
    refine ⟨permission,hp,part,hpart,role,hrole,link,hlink,?_⟩
    rw [if_pos ⟨h₁,h₂,h₃,h₄⟩]
    exact List.mem_singleton_self _

end Records

section Sessions

/-- Everything a request can raise. -/
inductive Failure where
  /-- `UnauthorizedException`. -/
  | unauthorized (message : String)
  /-- `ForbiddenException`. -/
  | forbidden (message : String)
  /-- `TooManyRequestsException`. -/
  | tooManyRequests (message : String)
  /-- `BadRequestException`. -/
  | badRequest (message : String)
  /-- `ServiceUnavailableException`. -/
  | serviceUnavailable (message : String)
  /-- `NotFoundException`. -/
  | notFound (message : String)
  /-- `RequestValidationError`. -/
  | requestValidation
  /-- `RuntimeError`. -/
  | runtimeError (message : String)
  /-- A unique constraint failed: `IntegrityError`. -/
  | integrityError
  /-- A column rejected a value: `DataError`. -/
  | dataError
  /-- A flushed row no longer exists: `StaleDataError`. -/
  | staleData
  /-- A query for one row found several: `MultipleResultsFound`. -/
  | multipleResultsFound
deriving DecidableEq

/-- What the next flush has to write. -/
inductive Change where
  /-- A row of `session.new`. -/
  | add (t : Table) (row : Row t)
  /-- An object of `session.dirty` with its assigned attributes. -/
  | assign (t : Table) (isRow : Row t → Bool) (f : Row t → Row t)

/-- Write one change. -/
def write : Change → Transaction userSchema → Except Failure (Transaction userSchema)
  | .add t row,data =>
    match data.insertRow t row with
    | (.inserted,data') => .ok data'
    | (.duplicateKey,_) => .error .integrityError
    | (.invalidValue,_) => .error .dataError
  | .assign t isRow f,data =>
    if ((data.work t).filter isRow).length≠1 then .error .staleData
    else if ((data.work t).filter isRow).all fun r => valid t (f r) then
      .ok (data.write t ((data.work t).map fun r => if isRow r then f r else r))
    else .error .dataError

/-- Write all changes in their order. -/
def writeAll : List Change → Transaction userSchema → Except Failure (Transaction userSchema)
  | [],data => .ok data
  | change::rest,data =>
    match write change data with
    | .ok data' => writeAll rest data'
    | .error e => .error e

/-- A session with the identifiers drawn so far. -/
structure World where
  /-- How many identifiers have been drawn. -/
  draws : ℕ
  /-- The transaction. -/
  data : Transaction userSchema
  /-- Added rows and changed objects since the last flush. -/
  unflushed : List Change

/-- `session.flush()`; a failed flush rolls the transaction back. -/
def World.flush (w : World) : Except Failure Unit×World :=
  match writeAll w.unflushed w.data with
  | .ok data => (.ok (),{w with data := data, unflushed := []})
  | .error e => (.error e,{w with data := ⟨w.data.committed,w.data.committed⟩, unflushed := []})

/-- A query after its flush. -/
def World.read {α : Type} (w : World) (query : Tables → α) : Except Failure α×World :=
  match w.flush with
  | (.ok _,w') => (.ok (query w'.data.work),w')
  | (.error e,w') => (.error e,w')

/-- `session.commit()`. -/
def World.publish (w : World) : Except Failure Unit×World :=
  match w.flush with
  | (.ok _,w') => (.ok (),{w' with data := ⟨w'.data.work,w'.data.work⟩})
  | (.error e,w') => (.error e,w')

/-- One effect of a request. -/
inductive Effect where
  /-- `uuid4()`. -/
  | draw
  /-- Read rows of a table. -/
  | select (t : Table) (q : Row t → Bool)
  /-- Read the roles of a user. -/
  | selectRoles (userId : UUID)
  /-- Read the permission names of a user. -/
  | selectPermissionNames (userId : UUID)
  /-- `session.add`. -/
  | add (t : Table) (row : Row t)
  /-- Assign to attributes of a loaded object. -/
  | assign (t : Table) (isRow : Row t → Bool) (f : Row t → Row t)
  /-- `session.flush()`. -/
  | flush
  /-- `session.new or session.dirty`. -/
  | changed
  /-- `session.commit()`. -/
  | commit

/-- What an effect returns. -/
abbrev Effect.Reply : Effect → Type
  | .draw => ℕ
  | .select t _ => Except Failure (List (Row t))
  | .selectRoles _ => Except Failure (List Role)
  | .selectPermissionNames _ => Except Failure (List String)
  | .add _ _ => Unit
  | .assign _ _ _ => Unit
  | .flush => Except Failure Unit
  | .changed => Bool
  | .commit => Except Failure Unit

/-- The effects of the service. -/
abbrev userSignature : Signature := ⟨Effect,Effect.Reply⟩

/-- An action of the service. -/
abbrev Action (α : Type) := Program userSignature Failure α

/-- Perform one effect. -/
def World.perform : (op : Effect) → World → op.Reply×World
  | .draw,w => (w.draws,{w with draws := w.draws+1})
  | .select t q,w => w.read fun db => (db t).filter q
  | .selectRoles userId,w => w.read fun db => rolesForUser db userId
  | .selectPermissionNames userId,w => w.read fun db => permissionNamesForUser db userId
  | .add t row,w => ((),{w with unflushed := w.unflushed++[.add t row]})
  | .assign t isRow f,w => ((),{w with unflushed := w.unflushed++[.assign t isRow f]})
  | .flush,w => w.flush
  | .changed,w => (!w.unflushed.isEmpty,w)
  | .commit,w => w.publish

/-- Raise a failure of the session. -/
def raiseFailed {α : Type} : Except Failure α → Action α
  | .ok a => return a
  | .error e => throw e

/-- `uuid4()`. -/
def uuid4 : Action UUID := do return ⟨←(.call .draw .pure : Action ℕ)⟩

/-- `session.execute(select(...))`. -/
def select (t : Table) (q : Row t → Bool) : Action (List (Row t)) :=
  .call (.select t q) raiseFailed

/-- `session.add`. -/
def add (t : Table) (row : Row t) : Action Unit := .call (.add t row) fun _ => .pure ()

/-- Assign to attributes of a loaded object. -/
def assign (t : Table) (isRow : Row t → Bool) (f : Row t → Row t) : Action Unit :=
  .call (.assign t isRow f) fun _ => .pure ()

/-- `session.flush()`. -/
def flush : Action Unit := .call .flush raiseFailed

/-- `session.new or session.dirty`. -/
def changed : Action Bool := .call .changed .pure

/-- `session.commit()`. -/
def commit : Action Unit := .call .commit raiseFailed

/-- `result.scalar_one_or_none()`. -/
def scalarOneOrNone {α : Type} : List α → Action (Option α)
  | [] => return none
  | [row] => return some row
  | _ => throw .multipleResultsFound

end Sessions

end BackendPlatform.UserRecords
