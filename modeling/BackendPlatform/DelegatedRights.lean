import BackendPlatform.OverlappingRuns
import BackendPlatform.RoleGrants
import BackendPlatform.SessionInvariants
import Mathlib.Logic.Relation

/-!
# Rights under overlapping requests

Whoever may assign roles could do so at the start or was assigned a role that
carries the right, by a user who had got it in this way. This holds however
requests overlap: the permissions a request acts on were read from links that
are all explained, and what it then writes is explained by the request itself.
-/

set_option autoImplicit false

namespace BackendPlatform.DelegatedRights

open ProgramTrees InterleavedRuns TransactionalTables RowLocking RowInvariants
open UserRecords UserRequests ConcurrentSessions SessionInvariants
open AuthRecords (UUID)
open OverlappingRuns (sampleUpdate effects)
open RoleGrants (sampleStart)

section Chains

variable (db : UserRecords.Tables) (Asked : ClientRequest → Prop)

/-- The user that a request acts as. -/
def ActsAs (c : ClientRequest) (actor : UUID) : Prop :=
  ∃ claims, c.authorization=.ok claims ∧
    (actor=claims.sub ∨ ∃ user∈appUsersOf db,user.externalSubject=claims.sub.str ∧ user.id=actor)

/-- One of the requests asks, as one user, to assign a role to another. -/
def Assigns (actor target : UUID) (roleName : String) : Prop :=
  ∃ c payload, Asked c ∧ ActsAs db c actor ∧ c.request=.assignRole (some target) (some payload) ∧
    payload.roleName=roleName

/-- At the start the role of this name carries the right to assign roles. -/
def Carries (roleName : String) : Prop :=
  ∃ role∈rolesOf db,role.name=roleName ∧ ∃ part∈rolePermissionsOf db,part.roleId=role.id ∧
    ∃ permission∈permissionsOf db,part.permissionId=permission.id ∧
      permission.name=permissionRolesAssign

/-- One of the requests carries accepted claims of this user. -/
def Contacts (userId : UUID) : Prop :=
  ∃ c claims, Asked c ∧ c.authorization=.ok claims ∧ claims.sub=userId

/-- One of the requests asks to pass the right on. -/
def PassesOn (actor target : UUID) : Prop :=
  ∃ roleName, Assigns db Asked actor target roleName ∧ Carries db roleName

/-- The right was passed on to this user by a user who had it at the start,
along a chain of requests. -/
def Delegated (userId : UUID) : Prop :=
  ∃ first, permissionRolesAssign∈permissionNamesForUser db first ∧
    Relation.ReflTransGen (PassesOn db Asked) first userId

/-- Where a link comes from: the start, the default of a first contact, or a
request of a user with the right to assign. -/
inductive Explained (link : UserRole) : Prop
  /-- It was there at the start. -/
  | initial (h : link∈userRolesOf db)
  /-- The first contact of a user got the default role. -/
  | default (role : Role) (hcontact : Contacts Asked link.userId) (hrole : role∈rolesOf db)
      (hname : role.name=roleUser) (hlink : link.roleId=role.id)
  /-- A user with the right to assign assigned it. -/
  | assigned (actor : UUID) (role : Role) (hactor : Delegated db Asked actor)
      (hasked : Assigns db Asked actor link.userId role.name) (hrole : role∈rolesOf db)
      (hlink : link.roleId=role.id)

/-- Rows that may be written: explained links, users under their own subject,
and nothing new among the roles and permissions. -/
def Admitted : (t : Table) → Row t → Prop
  | .userRoles,link => Explained db Asked link
  | .appUsers,user => user∈appUsersOf db ∨ user.externalSubject=user.id.str
  | .roles,role => role∈rolesOf db
  | .permissions,permission => permission∈permissionsOf db
  | .rolePermissions,part => part∈rolePermissionsOf db
  | _,_ => True

variable {db Asked}

/-- The next user of a chain. -/
theorem Delegated.passOn {actor target : UUID} (h : Delegated db Asked actor)
    (hpass : PassesOn db Asked actor target) : Delegated db Asked target := by
  obtain ⟨first,hfirst,hchain⟩ := h
  exact ⟨first,hfirst,hchain.tail hpass⟩

/-- Who sees the right to assign in admitted rows was delegated it. -/
theorem delegated_of_admitted (hdefault : ¬Carries db roleUser) {view : UserRecords.Tables}
    (hview : ∀ t, ∀ r∈view t, Admitted db Asked t r) {userId : UUID}
    (h : permissionRolesAssign∈permissionNamesForUser view userId) : Delegated db Asked userId := by
  obtain ⟨permission,hp,part,hpart,role,hrole,link,hlink,hjoin,hof,hlinked,huser,hname⟩ :=
    mem_permissionNamesForUser.mp h
  have hp : permission∈permissionsOf db := hview .permissions permission hp
  have hpart : part∈rolePermissionsOf db := hview .rolePermissions part hpart
  have hrole : role∈rolesOf db := hview .roles role hrole
  -- the link may name another row of the same role
  have hcarries : ∀ other∈rolesOf db, link.roleId=other.id → Carries db other.name :=
    fun other hother hid => ⟨other,hother,rfl,part,hpart,
      (hof.symm.trans hlinked.symm).trans hid,permission,hp,hjoin,hname⟩
  have hexplained : Explained db Asked link := hview .userRoles link hlink
  cases hexplained with
  | initial hinitial =>
    have hfirst : permissionRolesAssign∈permissionNamesForUser db userId :=
      mem_permissionNamesForUser.mpr ⟨permission,hp,part,hpart,role,hrole,link,hinitial,hjoin,
        hof,hlinked,huser,hname⟩
    exact ⟨userId,hfirst,.refl⟩
  | default usual _ husual husualName husualLink =>
    exact absurd (husualName ▸ hcarries usual husual husualLink) hdefault
  | assigned actor given hactor hasked hgiven hgivenLink =>
    exact huser ▸ hactor.passOn ⟨given.name,hasked,hcarries given hgiven hgivenLink⟩

end Chains

section Programs

variable {db : UserRecords.Tables} {Asked : ClientRequest → Prop} {α β : Type}

/-- Changes that a request may wait to write. -/
abbrev Permitted (db : UserRecords.Tables) (Asked : ClientRequest → Prop) : Change → Prop :=
  Meets (Admitted db Asked)

/-- What a query can answer: admitted rows, and the right to assign only to
whom it was delegated. -/
def Answers (db : UserRecords.Tables) (Asked : ClientRequest → Prop) :
    (op : Effect) → op.Reply → Prop
  | .select t q,.ok rows => ∀ row∈rows,Admitted db Asked t row ∧ q row=true
  | .selectPermissionNames userId,.ok names =>
    permissionRolesAssign∈names → Delegated db Asked userId
  | _,_ => True

/-- The protocol of a request; it needs no control state. -/
def protocol (db : UserRecords.Tables) (Asked : ClientRequest → Prop) :
    Protocol userSignature Unit where
  Moves _ op _ _ := Asks (Permitted db Asked) op
  Offers _ op reply := Answers db Asked op reply

/-- An action that keeps to the protocol and ends in a result that satisfies
the postcondition. -/
abbrev Keeps (db : UserRecords.Tables) (Asked : ClientRequest → Prop) (p : Action α)
    (Q : α → Prop) : Prop :=
  p.Follows (protocol db Asked) () fun _ o => ∀ a, o=.ok a → Q a

/-- The second part may rely on what the first one returned. -/
theorem Keeps.bind {p : Action α} {f : α → Action β} {Q : α → Prop} {R : β → Prop}
    (hp : Keeps db Asked p Q) (hf : ∀ a, Q a → Keeps db Asked (f a) R) :
    Keeps db Asked (p.bind f) R :=
  Program.Follows.bind hp (fun _ a ha => hf a (ha a rfl)) fun _ _ _ => by rintro _ ⟨⟩

/-- A returned value has to meet the postcondition. -/
theorem keeps_pure {Q : α → Prop} {a : α} (h : Q a) : Keeps db Asked (.pure a : Action α) Q := by
  rintro _ ⟨⟩
  exact h

/-- A raised failure returns nothing. -/
theorem keeps_raise {Q : α → Prop} (e : Failure) : Keeps db Asked (.raise e : Action α) Q := by
  rintro _ ⟨⟩

/-- One effect whose reply may be a failure of the session. -/
theorem keeps_call {op : Effect} {k : op.Reply → Action α} {Q : α → Prop}
    (hop : Asks (Permitted db Asked) op)
    (hk : ∀ reply, Answers db Asked op reply → Keeps db Asked (k reply) Q) :
    Keeps db Asked (.call op k) Q := fun reply hanswer => ⟨(),hop,hk reply hanswer⟩

/-- An answer that is no failure goes on as it is. -/
theorem keeps_raiseFailed {reply : Except Failure α} {Q : α → Prop}
    (h : ∀ a, reply=.ok a → Q a) : Keeps db Asked (raiseFailed reply) Q := by
  cases reply with
  | error e => exact keeps_raise e
  | ok a => exact keeps_pure (h a rfl)

/-- A SELECT answers with permitted rows. -/
theorem keeps_select (t : Table) (q : Row t → Bool) : Keeps db Asked (select t q) fun rows =>
    Answers db Asked (.select t q) (.ok rows) := by
  refine keeps_call trivial fun reply hanswer => keeps_raiseFailed fun rows hrows => ?_
  subst hrows
  exact hanswer

/-- The row picked from a result is one of its rows. -/
theorem keeps_scalarOneOrNone (rows : List α) :
    Keeps db Asked (scalarOneOrNone rows) fun found => ∀ row, found=some row → row∈rows := by
  unfold scalarOneOrNone
  split
  · exact keeps_pure (by rintro _ ⟨⟩)
  · rename_i row
    refine keeps_pure ?_
    rintro _ ⟨⟩
    exact List.mem_singleton_self row
  · exact keeps_raise _

/-- An added row must be permitted. -/
theorem keeps_add {t : Table} {row : Row t} (h : Permitted db Asked (.add t row)) :
    Keeps db Asked (add t row) fun _ => True :=
  keeps_call h fun _ _ => keeps_pure trivial

/-- A flush adds nothing of its own. -/
theorem keeps_flush : Keeps db Asked flush fun _ => True :=
  keeps_call trivial fun _ _ => keeps_raiseFailed fun _ _ => trivial

/-- A COMMIT adds nothing of its own. -/
theorem keeps_commit : Keeps db Asked commit fun _ => True :=
  keeps_call trivial fun _ _ => keeps_raiseFailed fun _ _ => trivial

/-- Audit rows are permitted to everybody. -/
theorem keeps_logEvent (eventType outcome : String) (actor target : Option UUID)
    (ip ua : Option String) (payload : List (String×PayloadValue)) :
    Keeps db Asked (AuditService.logEvent eventType outcome actor target ip ua payload)
      fun _ => True :=
  (keeps_add (t := .auditEvents) trivial).bind fun _ _ => keeps_flush

/-- A query for at most one row. -/
theorem keeps_query (t : Table) (q : Row t → Bool) :
    Keeps db Asked ((select t q).bind scalarOneOrNone) fun found => ∀ row, found=some row →
      Admitted db Asked t row ∧ q row=true := by
  refine (keeps_select t q).bind fun rows hrows => ?_
  refine (keeps_scalarOneOrNone rows).mono fun _ _ hfound found hreturned row hrow => ?_
  exact hrows row (hfound found hreturned row hrow)

/-- The role of a name is one of the start. -/
theorem keeps_getRoleByName (roleName : String) :
    Keeps db Asked (RBACRepository.getRoleByName roleName) fun found => ∀ role, found=some role →
      role∈rolesOf db ∧ role.name=roleName := by
  refine (keeps_query .roles _).mono fun _ _ hfound found hreturned role hrole => ?_
  obtain ⟨hknown,hname⟩ := hfound found hreturned role hrole
  exact ⟨hknown,beq_iff_eq.mp hname⟩

/-- Only explained links are assigned. -/
theorem keeps_assignRoleToUser {userId roleId : UUID} (h : Explained db Asked ⟨userId,roleId⟩) :
    Keeps db Asked (RBACRepository.assignRoleToUser userId roleId) fun _ => True := by
  refine (keeps_select .userRoles _).bind fun rows _ =>
    (keeps_scalarOneOrNone rows).bind fun found _ => ?_
  cases found with
  | some link => exact keeps_pure trivial
  | none => exact (keeps_add (t := .userRoles) h).bind fun _ _ => keeps_flush

/-- A user found or created for a subject. -/
def IsUserOf (db : UserRecords.Tables) (subject userId : UUID) : Prop :=
  userId=subject ∨ ∃ user∈appUsersOf db,user.externalSubject=subject.str ∧ user.id=userId

/-- A first contact enrols the subject of the claims and nobody else. -/
theorem keeps_bootstrapFromSubject {subject : UUID} (hcontact : Contacts Asked subject)
    (ip ua : Option String) :
    Keeps db Asked (UserService.bootstrapFromSubject subject ip ua)
      fun user => IsUserOf db subject user.id := by
  refine Keeps.bind (Q := fun found => ∀ user, found=some user → IsUserOf db subject user.id)
    ?_ fun found hfound => ?_
  · refine (keeps_query .appUsers _).mono fun _ _ hfound found hreturned user huser => ?_
    obtain ⟨hknown,hq⟩ := hfound found hreturned user huser
    have hsubject : user.externalSubject=subject.str := beq_iff_eq.mp hq
    rcases hknown with hinitial|hown
    · exact .inr ⟨user,hinitial,hsubject,rfl⟩
    · exact .inl (UUID.str_injective (hown.symm.trans hsubject))
  · cases found with
    | some user => exact keeps_pure (hfound user rfl)
    | none =>
      refine Keeps.bind (Q := fun user : AppUser => user.id=subject) ?_ fun user huser => ?_
      · have hown : Permitted db Asked (.add .appUsers ⟨subject,subject.str,true⟩) := .inr rfl
        exact (keeps_add hown).bind fun _ _ => (keeps_add (t := .userProfiles) trivial).bind
          fun _ _ => keeps_flush.bind fun _ _ => keeps_pure rfl
      · refine Keeps.bind (Q := fun _ => True) ?_ fun _ _ =>
          (keeps_logEvent _ _ _ _ ip ua _).bind fun _ _ => keeps_pure (.inl huser)
        refine (keeps_getRoleByName roleUser).bind fun role hrole => ?_
        cases role with
        | none => exact keeps_raise _
        | some role =>
          obtain ⟨hmem,hname⟩ := hrole role rfl
          exact keeps_assignRoleToUser (.default role (huser ▸ hcontact) hmem hname rfl)

/-- The context of a request: its user, and the right to assign only if it was
delegated to this user. -/
def Entitled (db : UserRecords.Tables) (Asked : ClientRequest → Prop) (c : ClientRequest)
    (context : UserContext) : Prop :=
  ActsAs db c context.user.id ∧
    (permissionRolesAssign∈context.permissions → Delegated db Asked context.user.id)

/-- The context lists rights that its user is entitled to. -/
theorem keeps_getCurrentContext {c : ClientRequest} (hasked : Asked c) :
    Keeps db Asked (Endpoints.getCurrentContext c) (Entitled db Asked c) := by
  unfold Endpoints.getCurrentContext
  split
  · exact keeps_raise _
  · rename_i claims hclaims
    refine Keeps.bind (Q := fun _ => True) ?_ fun _ _ => ?_
    · unfold Endpoints.ensureAccessSessionActive
      split
      · exact keeps_raise _
      · exact keeps_pure trivial
    · refine Keeps.bind (Q := Entitled db Asked c) ?_ fun context hcontext => ?_
      · refine (keeps_bootstrapFromSubject ⟨c,claims,hasked,hclaims,rfl⟩ _ _).bind fun user huser =>
          (keeps_query .userProfiles _).bind fun profile _ => ?_
        cases profile with
        | none => exact keeps_raise _
        | some profile =>
          refine Keeps.bind (Q := fun _ => True) ?_ fun roles _ =>
            keeps_call trivial fun reply hanswer => ?_
          · exact Keeps.bind (Q := fun _ => True)
              (keeps_call trivial fun _ _ => keeps_raiseFailed fun _ _ => trivial)
              fun _ _ => keeps_pure trivial
          · cases reply with
            | error e => exact keeps_raise _
            | ok names => exact keeps_pure ⟨⟨claims,hclaims,huser⟩,hanswer⟩
      · simp only [Program.monad_bind,Program.monad_throw]
        split
        · exact keeps_raise _
        · refine Keeps.bind (Q := fun _ => True) (keeps_call trivial fun _ _ => keeps_pure trivial)
            fun dirty _ => ?_
          split
          · exact keeps_commit.bind fun _ _ => keeps_pure hcontext
          · exact keeps_pure hcontext

/-- A request past this check holds the permission. -/
theorem keeps_ensurePermission (permissions : List String) (required : String) :
    Keeps db Asked (Endpoints.ensurePermission permissions required)
      fun _ => required∈permissions := by
  unfold Endpoints.ensurePermission
  split
  · exact keeps_raise _
  · rename_i h
    exact keeps_pure (not_not.mp h)

/-- A request past validation carries the parameter. -/
theorem keeps_validated (parameter : Option α) :
    Keeps db Asked (Endpoints.validated parameter) fun value => parameter=some value := by
  cases parameter with
  | none => exact keeps_raise _
  | some value => exact keeps_pure rfl

/-- The rate limit adds nothing. -/
theorem keeps_rateLimit (limited : Option Failure) :
    Keeps db Asked (Endpoints.rateLimit limited) fun _ => True := by
  cases limited with
  | none => exact keeps_pure trivial
  | some failure => exact keeps_raise _

/-- Looking a user up adds nothing. -/
theorem keeps_getUserById (userId : UUID) :
    Keeps db Asked (UserService.getUserById userId) fun _ => True := by
  refine (keeps_query .appUsers _).bind fun found _ => ?_
  cases found with
  | none => exact keeps_raise _
  | some user => exact keeps_pure trivial

/-- A profile update adds no right. -/
theorem keeps_updateProfile (c : ClientRequest) (context : UserContext)
    (payload : UpdateProfileRequest) :
    Keeps db Asked (Endpoints.updateProfile c context payload) fun _ => True := by
  refine (keeps_ensurePermission _ _).bind fun _ _ => Keeps.bind (Q := fun _ => True) ?_
    fun _ _ => keeps_commit.bind fun _ _ => keeps_pure trivial
  refine (keeps_query .userProfiles _).bind fun found _ => ?_
  cases found with
  | none => exact keeps_raise _
  | some profile =>
    refine Keeps.bind (Q := fun _ => True) ?_ fun _ _ =>
      (keeps_logEvent _ _ _ _ _ _ _).bind fun _ _ => keeps_pure trivial
    have hassign : Keeps db Asked (assign .userProfiles (fun r => r.userId==profile.userId)
        (ProfileRepository.updated payload)) fun _ => True :=
      keeps_call (fun _ _ h => h) fun _ _ => keeps_pure trivial
    exact hassign.bind fun _ _ => keeps_flush.bind fun _ _ => keeps_pure trivial

/-- A role is assigned in the name of a user with the right to. -/
theorem keeps_assignRole {c : ClientRequest} {context : UserContext} {target : UUID}
    {payload : AssignRoleRequest} (hasked : Asked c) (hcontext : Entitled db Asked c context)
    (hrequest : c.request=.assignRole (some target) (some payload)) :
    Keeps db Asked (Endpoints.assignRole c context target payload) fun _ => True := by
  refine (keeps_ensurePermission _ _).bind fun _ hright => (keeps_getUserById _).bind fun _ _ =>
    Keeps.bind (Q := fun _ => True) ?_ fun _ _ => (keeps_logEvent _ _ _ _ _ _ _).bind fun _ _ =>
    keeps_commit.bind fun _ _ => keeps_pure trivial
  refine (keeps_getRoleByName payload.roleName).bind fun role hrole => ?_
  cases role with
  | none => exact keeps_raise _
  | some role =>
    obtain ⟨hmem,hname⟩ := hrole role rfl
    exact keeps_assignRoleToUser (.assigned context.user.id role (hcontext.2 hright)
      ⟨c,payload,hasked,hcontext.1,hrequest,hname.symm⟩ hmem rfl)

/-- Every request keeps to the protocol. -/
theorem keeps_respond {c : ClientRequest} (hasked : Asked c) :
    Keeps db Asked (respond c) fun _ => True := by
  have hcontext : Keeps db Asked (Endpoints.getCurrentContext c) (Entitled db Asked c) :=
    keeps_getCurrentContext hasked
  unfold respond
  split
  · exact hcontext.bind fun _ _ => keeps_pure trivial
  · exact hcontext.bind fun _ _ => (keeps_validated _).bind fun userId _ =>
      (keeps_ensurePermission _ _).bind fun _ _ => (keeps_getUserById userId).bind fun _ _ =>
      keeps_pure trivial
  · exact hcontext.bind fun _ _ => (keeps_ensurePermission _ _).bind fun _ _ => keeps_pure trivial
  · exact (keeps_rateLimit _).bind fun _ _ => hcontext.bind fun context _ =>
      (keeps_validated _).bind fun payload _ => keeps_updateProfile c context payload
  · exact hcontext.bind fun _ _ => keeps_pure trivial
  · rename_i userId payload hrequest
    refine (keeps_rateLimit _).bind fun _ _ => hcontext.bind fun context hentitled =>
      (keeps_validated _).bind fun target htarget => (keeps_validated _).bind fun body hbody => ?_
    subst htarget hbody
    exact keeps_assignRole hasked hentitled hrequest
  · exact hcontext.bind fun _ _ => keeps_pure trivial

end Programs

section Runs

variable {db : UserRecords.Tables} {Asked : ClientRequest → Prop} {draws : ℕ} {sys : UserSystem}

/-- Only these requests are started. -/
def Starts (Asked : ClientRequest → Prop) (_ : UserSystem) : UserMove → Prop
  | .spawn program => ∃ client, Asked client ∧ program=respond client
  | _ => True

/-- Tables of admitted rows, with sessions that wait to write such rows. -/
abbrev Sound (db : UserRecords.Tables) (Asked : ClientRequest → Prop) : Shared → Prop :=
  Kept (Versions (Admitted db Asked)) (Permitted db Asked)

/-- What a request sees is admitted. -/
theorem Sound.view {s : Shared} (h : Sound db Asked s) (pid : ℕ) (t : Table) :
    ∀ r∈s.view pid t, Admitted db Asked t r := fun _ hr => h.tables.visible hr

/-- An effect that only makes progress asks for no change. -/
theorem asks_of_progress {op : Effect} {s s' : Shared} {pid choice : ℕ}
    (hf : userMachine.fire pid op choice s=some (none,s')) : Asks (Permitted db Asked) op := by
  cases op with
  | add t row => cases hf
  | assign t isRow f => cases hf
  | _ => trivial

/-- The replies of sound tables are those that requests count on. -/
theorem Sound.answers (hdefault : ¬Carries db roleUser) {s s' : Shared} (hs : Sound db Asked s)
    {pid choice : ℕ} {op : Effect} {reply : op.Reply}
    (hf : userMachine.fire pid op choice s=some (some reply,s')) : Answers db Asked op reply := by
  cases op with
  | select t q =>
    cases reply with
    | error e => trivial
    | ok rows =>
      obtain ⟨rfl,_⟩ := flushed_ok hf
      intro row hrow
      obtain ⟨hseen,hq⟩ := List.mem_filter.mp hrow
      exact ⟨hs.view pid t row hseen,hq⟩
  | selectPermissionNames userId =>
    cases reply with
    | error e => trivial
    | ok names =>
      obtain ⟨rfl,_⟩ := flushed_ok hf
      exact delegated_of_admitted hdefault (hs.view pid)
  | _ => trivial

/-- Every move of the requests keeps the tables sound. -/
theorem duties (hdefault : ¬Carries db roleUser) :
    Duties userMachine (protocol db Asked) () (fun _ _ => True)
      (fun s _ _ => Sound db Asked s) (Starts Asked) id where
  spawn sys p hc := by
    obtain ⟨client,hasked,rfl⟩ := hc
    exact (keeps_respond hasked).mono fun _ _ _ => trivial
  outcome _ _ _ := trivial
  progress sys states i op k c s ht _ _ hf :=
    ((upkeep_versions _).fire ht.inv (asks_of_progress hf) hf).1
  offer sys states i op k c r s ht _ _ hf := Sound.answers hdefault ht.inv hf
  answer sys states i op k c r s t ht _ _ hm hf := ((upkeep_versions _).fire ht.inv hm hf).1
  close sys states i ht _ := ((upkeep_versions _).rolledBack ht.inv i).1

/-- However requests overlap, whoever may assign roles was delegated the right
along a chain of requests from a user who had it at the start, and every
committed link is explained. -/
theorem rights_delegated (hdefault : ¬Carries db roleUser)
    (h : userMachine.Reaches (Starts Asked) (idleSystem draws db) sys) :
    (∀ userId, permissionRolesAssign∈permissionNamesForUser
      (fun t => sys.shared.tables.committed t) userId → Delegated db Asked userId) ∧
    ∀ link∈sys.shared.tables.committed .userRoles, Explained db Asked link := by
  have hidle : Versions (Admitted db Asked) (idleTables db) := by
    refine versions_idleTables fun t r hr => ?_
    cases t with
    | userRoles => exact .initial hr
    | appUsers => exact .inl hr
    | roles => exact hr
    | permissions => exact hr
    | rolePermissions => exact hr
    | userProfiles => trivial
    | auditEvents => trivial
  have hstart : Tracks (protocol db Asked) () (fun _ _ => True)
      (fun s _ _ => Sound db Asked s) (idleSystem draws db) fun _ => () := by
    refine ⟨⟨hidle,?_⟩,?_,fun _ _ => rfl⟩
    · rintro pid change ⟨⟩
    · intro i p hp
      cases hp
  obtain ⟨_,ht⟩ := (duties hdefault).reaches hstart h
  have hsound : Sound db Asked sys.shared := ht.inv
  have hcommitted : ∀ t, ∀ r∈sys.shared.tables.committed t, Admitted db Asked t r :=
    fun t r hr => hsound.tables.committed hr
  exact ⟨fun userId => delegated_of_admitted hdefault hcommitted,hcommitted .userRoles⟩

/-- The name of the sample role fits its bounds. -/
theorem length_admin : 2≤"admin".length ∧ "admin".length≤64 := by decide

/-- The administrator makes the second user one. -/
def samplePromotion : ClientRequest :=
  ⟨.assignRole (some ⟨88⟩) (some ⟨"admin",length_admin⟩),none,.ok ⟨⟨77⟩,⟨1⟩⟩,false,
    "198.51.100.7",some "browser"⟩

/-- The promotion and an update overlap. -/
def sampleOverlap : List UserMove :=
  [.spawn (respond samplePromotion),.spawn (respond sampleUpdate)]++effects 0 5++effects 1 14++
    effects 0 10++[.finish 0,.finish 1]

/-- A promoted user may assign roles, by the promotion of an administrator. -/
theorem rights_delegated_promotion : ∃ sys : UserSystem,
    permissionRolesAssign∈permissionNamesForUser
      (fun t => sys.shared.tables.committed t) ⟨88⟩ ∧
      Delegated sampleStart.db (fun c => c=samplePromotion ∨ c=sampleUpdate) ⟨88⟩ := by
  have hdefault : ¬Carries sampleStart.db roleUser := by
    unfold Carries
    decide +kernel
  have hrun : (userMachine.runSchedule (fun _ _ => true) sampleOverlap
      (idleSystem 12 sampleStart.db)).any (fun sys => decide (permissionRolesAssign∈
        permissionNamesForUser (fun t => sys.shared.tables.committed t) ⟨88⟩))=true := by
    decide +kernel
  obtain ⟨sys,hsys,hright⟩ := (Option.any_eq_true _ _).mp hrun
  have hright := of_decide_eq_true hright
  have hreached : userMachine.Reaches (Starts fun c => c=samplePromotion ∨ c=sampleUpdate)
      (idleSystem 12 sampleStart.db) sys := by
    refine Machine.Reaches.of_schedule .refl ?_ hsys
    intro mv hmv s _
    cases mv with
    | spawn p =>
      simp [sampleOverlap,effects] at hmv
      rcases hmv with hp|hp
      · exact ⟨samplePromotion,.inl rfl,hp⟩
      · exact ⟨sampleUpdate,.inr rfl,hp⟩
    | _ => trivial
  exact ⟨sys,hright,(rights_delegated hdefault hreached).1 ⟨88⟩ hright⟩

end Runs

end BackendPlatform.DelegatedRights
