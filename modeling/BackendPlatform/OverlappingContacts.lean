import BackendPlatform.ConcurrentSessions
import BackendPlatform.FirstContacts

/-!
# Overlapping first contacts

Requests of one new subject that overlap. Each of them looks the user up and
creates it if it is not there. A request whose user is committed by another one
between its look-up and its insertion fails at the unique constraint; all others
get their context. Users, profiles and default roles are never doubled.
-/

set_option autoImplicit false

namespace BackendPlatform.OverlappingContacts

open ProgramTrees InterleavedRuns TransactionalTables RowLocking
open AuthRecords (UUID fits)
open UserRecords UserRequests ConcurrentSessions
open UserSteps (bootstrapEvent)

section Protocol

/-- How far a request is. -/
inductive Phase where
  /-- The user has not been looked up. -/
  | start
  /-- There was no user. -/
  | absent
  /-- The user is added. -/
  | adding
  /-- User and profile are added and being written. -/
  | creating
  /-- User and profile are written. -/
  | created
  /-- The default role is added and being written. -/
  | linking
  /-- User and profile are there. -/
  | known
  /-- The profile is changed and being written. -/
  | updating
  /-- An audit row is added and being written. -/
  | recording
  /-- The request has committed. -/
  | done
  /-- The request died before it ended. -/
  | lost

variable (subject : UUID) (role : Role)

/-- The user of the subject. -/
def newUser : AppUser := ⟨subject,subject.str,true⟩

/-- Its first profile. -/
def newProfile : UserProfile := ⟨subject,none,"en-US","UTC",none⟩

/-- The effects of a request. -/
def moves : Phase → (op : Effect) → op.Reply → Phase → Prop
  | .start,.select .appUsers q,.ok [],next =>
      q=(fun r => r.externalSubject==subject.str) ∧ next=.absent
  | .start,.select .appUsers q,_,next =>
      q=(fun r => r.externalSubject==subject.str) ∧ next=.known
  | .absent,.add .appUsers row,_,next => row=newUser subject ∧ next=.adding
  | .adding,.add .userProfiles row,_,next => row=newProfile subject ∧ next=.creating
  | .creating,.flush,_,next => next=.created
  | .created,.select .roles q,_,next => q=(fun r => r.name==roleUser) ∧ next=.created
  | .created,.select .userRoles q,_,next =>
      q=(fun r => r.userId==subject && r.roleId==role.id) ∧ next=.created
  | .created,.add .userRoles row,_,next => row=⟨subject,role.id⟩ ∧ next=.linking
  | .linking,.flush,_,next => next=.known
  | .known,.add .auditEvents row,_,next => valid .auditEvents row=true ∧ next=.recording
  | .recording,.flush,_,next => next=.known
  | .known,.select .userProfiles q,_,next => q=(fun r => r.userId==subject) ∧ next=.known
  | .known,.select .appUsers q,_,next => (∃ id,q=fun r => r.id==id) ∧ next=.known
  | .known,.selectRoles _,_,next => next=.known
  | .known,.selectPermissionNames _,_,next => next=.known
  | .known,.changed,_,next => next=.known
  | .known,.assign .userProfiles isRow f,_,next =>
      isRow=(fun r => r.userId==subject) ∧ (∃ payload,f=ProfileRepository.updated payload) ∧
        next=.updating
  | .updating,.flush,_,next => next=.known
  | .known,.commit,_,next => next=.done
  | _,_,_,_ => False

/-- The replies a request can get. -/
def offers : Phase → (op : Effect) → op.Reply → Prop
  | .start,.select .appUsers q,reply => q=(fun r => r.externalSubject==subject.str) →
      reply=.ok [] ∨ reply=.ok [newUser subject]
  | .created,.select .roles q,reply => q=(fun r => r.name==roleUser) → reply=.ok [role]
  | .created,.select .userRoles q,reply =>
      q=(fun r => r.userId==subject && r.roleId==role.id) → reply=.ok []
  | .known,.select .userProfiles q,reply => q=(fun r => r.userId==subject) →
      ∃ profile,profile.userId=subject ∧ reply=.ok [profile]
  | .known,.select .appUsers q,reply => (∃ id,q=fun r => r.id==id) →
      reply=.ok [] ∨ ∃ user,reply=.ok [user]
  | .known,.selectRoles _,reply => ∃ roles,reply=.ok roles
  | .known,.selectPermissionNames _,reply => ∃ names,reply=.ok names
  | .known,.changed,reply => reply=false
  | .known,.commit,reply => reply=.ok ()
  | .creating,.flush,reply => reply=.ok ()
  | .linking,.flush,reply => reply=.ok ()
  | .updating,.flush,reply => reply=.ok ()
  | .recording,.flush,reply => reply=.ok ()
  | _,_,_ => True

/-- The protocol of a request. -/
def protocol : Protocol userSignature Phase := ⟨moves subject role,offers subject role⟩

/-- A request that ends has nothing to lose any more. -/
def ended : Phase → Phase := fun _ => .lost

/-- The request got its context: it is answered, or it fails in its endpoint. -/
def GotContext : Except Failure Response → Prop
  | .ok _ => True
  | .error e => e=.forbidden "Insufficient permissions" ∨ e=.requestValidation ∨
      e=.notFound "User not found"

/-- Every outcome comes after the context. -/
def Justified (_ : Phase) (o : Except Failure Response) : Prop := GotContext o

end Protocol

section Program

variable {subject : UUID} {role : Role}

/-- Reads and profile updates of the subject with an accepted token. -/
structure Contacts (subject : UUID) (c : ClientRequest) : Prop where
  /-- A read or a profile update. -/
  request : ∀ userId payload,c.request≠.assignRole userId payload
  /-- The limiter lets it pass. -/
  limited : c.limited=none
  /-- The token was accepted. -/
  authorization : ∃ claims,c.authorization=.ok claims ∧ claims.sub=subject
  /-- Its session is active. -/
  sessionActive : c.sessionRevoked=false
  /-- The client address fits its column. -/
  ipAddress : fits 64 (some c.ipAddress)=true
  /-- The client program fits its column. -/
  userAgent : fits 512 c.userAgent=true

/-- A part of a request ends with a value once user and profile are there. -/
def Gets {α : Type} (P : α → Prop) (phase : Phase) (o : Except Failure α) : Prop :=
  phase=.known ∧ ∃ a,o=.ok a ∧ P a

/-- What follows a part that ends with a value. -/
theorem Gets.bind {α β : Type} {P : α → Prop} {p : Action α} {f : α → Action β} {phase : Phase}
    {Q : Phase → Except Failure β → Prop}
    (hp : p.Follows (protocol subject role) phase (Gets P))
    (hf : ∀ a,P a → (f a).Follows (protocol subject role) .known Q) :
    (p.bind f).Follows (protocol subject role) phase Q := by
  refine hp.bind ?_ ?_
  · intro s a h
    obtain ⟨rfl,b,hb,hP⟩ := h
    have hab : a=b := Except.ok.inj hb
    subst hab
    exact hf a hP
  · intro s e h
    obtain ⟨_,b,hb,_⟩ := h
    cases hb

/-- Logging what fits its columns succeeds. -/
theorem follows_logEvent {eventType outcome : String} {actor target : Option UUID}
    {ip ua : Option String} {payload : List (String×PayloadValue)}
    (heventType : eventType.length≤128) (houtcome : outcome.length≤16)
    (hip : fits 64 ip=true) (hua : fits 512 ua=true) :
    (AuditService.logEvent eventType outcome actor target ip ua payload).Follows
      (protocol subject role) .known (Gets fun _ => True) := by
  have hvalid : valid .auditEvents ⟨eventType,outcome,actor,target,ip,ua,
      AuditService.sanitizePayload payload⟩=true := by
    show (decide (eventType.length≤128) && decide (outcome.length≤16) && fits 64 ip &&
      fits 512 ua)=true
    rw [hip,hua,decide_eq_true heventType,decide_eq_true houtcome]
    rfl
  intro _ _
  refine ⟨.recording,⟨hvalid,rfl⟩,?_⟩
  intro reply hreply
  obtain rfl : reply=.ok () := hreply
  exact ⟨.known,rfl,rfl,(),rfl,trivial⟩

/-- The user is found or created. -/
theorem follows_bootstrap {ip ua : Option String} (hip : fits 64 ip=true)
    (hua : fits 512 ua=true) :
    (UserService.bootstrapFromSubject subject ip ua).Follows (protocol subject role) .start
      (Gets fun user => user=newUser subject) := by
  intro found hfound
  rcases hfound rfl with rfl|rfl
  · refine ⟨.absent,⟨rfl,rfl⟩,?_⟩
    intro _ _
    refine ⟨.adding,⟨rfl,rfl⟩,?_⟩
    intro _ _
    refine ⟨.creating,⟨rfl,rfl⟩,?_⟩
    intro flushed hflushed
    obtain rfl : flushed=.ok () := hflushed
    refine ⟨.created,rfl,?_⟩
    intro roles hroles
    obtain rfl := hroles rfl
    refine ⟨.created,⟨rfl,rfl⟩,?_⟩
    intro links hlinks
    obtain rfl := hlinks rfl
    refine ⟨.created,⟨rfl,rfl⟩,?_⟩
    intro _ _
    refine ⟨.linking,⟨rfl,rfl⟩,?_⟩
    intro linked hlinked
    obtain rfl : linked=.ok () := hlinked
    refine ⟨.known,rfl,?_⟩
    have haudit : (AuditService.logEvent auditUserBootstrapped "success" (some subject)
        (some subject) ip ua []).Follows (protocol subject role) .known (Gets fun _ => True) :=
      follows_logEvent (by decide) (by decide) hip hua
    show ((AuditService.logEvent auditUserBootstrapped "success" (some subject) (some subject)
      ip ua []).bind fun _ => .pure (newUser subject)).Follows _ _ _
    exact Gets.bind haudit fun _ _ => ⟨rfl,newUser subject,rfl,rfl⟩
  · exact ⟨.known,⟨rfl,rfl⟩,rfl,newUser subject,rfl,rfl⟩

/-- The context of the subject. -/
theorem follows_context {ip ua : Option String} (hip : fits 64 ip=true)
    (hua : fits 512 ua=true) :
    (UserService.contextForSubject subject ip ua).Follows (protocol subject role) .start
      (Gets fun context => context.user=newUser subject) := by
  refine Gets.bind (follows_bootstrap hip hua) fun user huser => ?_
  subst huser
  intro profiles hprofiles
  obtain ⟨profile,_,rfl⟩ := hprofiles rfl
  refine ⟨.known,⟨rfl,rfl⟩,?_⟩
  intro roles hroles
  obtain ⟨roles,rfl⟩ := hroles
  refine ⟨.known,rfl,?_⟩
  intro names hnames
  obtain ⟨names,rfl⟩ := hnames
  exact ⟨.known,rfl,rfl,_,rfl,rfl⟩

/-- The context of a first contact is that of the new user. -/
theorem follows_getCurrentContext {c : ClientRequest} (h : Contacts subject c) :
    (Endpoints.getCurrentContext c).Follows (protocol subject role) .start
      (Gets fun context => context.user=newUser subject) := by
  obtain ⟨claims,hclaims,rfl⟩ := h.authorization
  unfold Endpoints.getCurrentContext
  rw [hclaims,h.sessionActive]
  show ((UserService.contextForSubject claims.sub (some c.ipAddress) c.userAgent).bind _).Follows
    _ _ _
  refine Gets.bind (follows_context h.ipAddress h.userAgent) fun context hcontext => ?_
  have hactive : context.user.isActive=true := by
    rw [hcontext]
    rfl
  rw [hactive]
  intro answer hanswer
  obtain rfl : answer=false := hanswer
  exact ⟨.known,rfl,rfl,context,rfl,hcontext⟩

/-- A required permission is there or the request is forbidden. -/
theorem follows_ensurePermission {permissions : List String} {required : String}
    {f : Unit → Action Response} (hf : (f ()).Follows (protocol subject role) .known Justified) :
    ((Endpoints.ensurePermission permissions required).bind f).Follows (protocol subject role)
      .known Justified := by
  unfold Endpoints.ensurePermission
  split
  · exact .inl rfl
  · exact hf

/-- The profile of the subject is changed. -/
theorem follows_updateOwnProfile {payload : UpdateProfileRequest} {ip ua : Option String}
    (hip : fits 64 ip=true) (hua : fits 512 ua=true) :
    (UserService.updateOwnProfile subject subject payload ip ua).Follows (protocol subject role)
      .known (Gets fun _ => True) := by
  intro profiles hprofiles
  obtain ⟨profile,hprofile,rfl⟩ := hprofiles rfl
  refine ⟨.known,⟨rfl,rfl⟩,?_⟩
  intro _ _
  refine ⟨.updating,⟨by rw [hprofile],⟨payload,rfl⟩,rfl⟩,?_⟩
  intro flushed hflushed
  obtain rfl : flushed=.ok () := hflushed
  refine ⟨.known,rfl,?_⟩
  have haudit : (AuditService.logEvent auditProfileUpdated "success" (some subject)
      (some subject) ip ua [("locale",.str payload.locale),("timezone",.str payload.timezone),
        ("has_avatar",.bool (payload.avatarUrl.any fun url => !url.isEmpty))]).Follows
          (protocol subject role) .known (Gets fun _ => True) :=
    follows_logEvent (by decide) (by decide) hip hua
  show ((AuditService.logEvent auditProfileUpdated "success" (some subject) (some subject) ip ua
    [("locale",.str payload.locale),("timezone",.str payload.timezone),
      ("has_avatar",.bool (payload.avatarUrl.any fun url => !url.isEmpty))]).bind fun _ =>
        .pure (ProfileRepository.updated payload profile)).Follows _ _ _
  exact Gets.bind haudit fun _ _ => ⟨rfl,_,rfl,trivial⟩

/-- A request keeps to the protocol. -/
theorem follows_respond {c : ClientRequest} (h : Contacts subject c) :
    (respond c).Follows (protocol subject role) .start Justified := by
  have hcontext : (Endpoints.getCurrentContext c).Follows (protocol subject role) .start
      (Gets fun context => context.user=newUser subject) := follows_getCurrentContext h
  cases hrequest : c.request with
  | me =>
    rw [respond,hrequest]
    exact Gets.bind hcontext fun _ _ => trivial
  | getUser userId =>
    rw [respond,hrequest]
    refine Gets.bind hcontext fun context hcontext => ?_
    cases userId with
    | none => exact .inr (.inl rfl)
    | some userId =>
      refine follows_ensurePermission ?_
      intro users husers
      rcases husers ⟨userId,rfl⟩ with rfl|⟨user,rfl⟩
      · exact ⟨.known,⟨⟨userId,rfl⟩,rfl⟩,.inr (.inr rfl)⟩
      · exact ⟨.known,⟨⟨userId,rfl⟩,rfl⟩,trivial⟩
  | myProfile =>
    rw [respond,hrequest]
    refine Gets.bind hcontext fun context _ => ?_
    exact follows_ensurePermission trivial
  | updateProfile payload =>
    rw [respond,hrequest,h.limited]
    show ((Endpoints.getCurrentContext c).bind _).Follows _ _ _
    refine Gets.bind hcontext fun context hcontext => ?_
    cases payload with
    | none => exact .inr (.inl rfl)
    | some payload =>
      refine follows_ensurePermission ?_
      rw [hcontext]
      refine Gets.bind (follows_updateOwnProfile h.ipAddress h.userAgent) fun updated _ => ?_
      intro reply hreply
      obtain rfl : reply=.ok () := hreply
      exact ⟨.done,rfl,trivial⟩
  | myRoles =>
    rw [respond,hrequest]
    exact Gets.bind hcontext fun _ _ => trivial
  | assignRole userId payload => exact absurd hrequest (h.request userId payload)
  | myPermissions =>
    rw [respond,hrequest]
    exact Gets.bind hcontext fun _ _ => trivial

end Program

section Readings

variable {subject : UUID} {role : Role}

/-- The profile of the subject is committed at an index. -/
def KnownAt (subject : UUID) (tables : RowLocking.Tables userSchema) (n : ℕ) : Prop :=
  ∃ (c : Cell UserProfile) (r : UserProfile),
    (tables.cells .userProfiles)[n]?=some c ∧ c.committed=some r ∧ r.userId=subject

/-- User and profile of the subject are committed. -/
structure Known (subject : UUID) (tables : RowLocking.Tables userSchema) : Prop where
  /-- The user. -/
  user : ∃ c∈tables.cells .appUsers,c.committed=some (newUser subject)
  /-- The profile. -/
  profile : ∃ n,KnownAt subject tables n

/-- No row of the subject is committed. -/
structure Vacant (subject : UUID) (tables : RowLocking.Tables userSchema) : Prop where
  /-- No user. -/
  users : ∀ c∈tables.cells .appUsers,∀ u : AppUser,c.committed=some u →
    u.externalSubject≠subject.str
  /-- No profile. -/
  profiles : ∀ c∈tables.cells .userProfiles,∀ r : UserProfile,c.committed=some r →
    r.userId≠subject
  /-- No role. -/
  links : ∀ c∈tables.cells .userRoles,∀ r : UserRole,c.committed=some r → r.userId≠subject

/-- The user of the subject is inserted by a request. -/
def OwnsUser (subject : UUID) (tables : RowLocking.Tables userSchema) (i : ℕ) : Prop :=
  ∃ n,Owns i (tables.cells .appUsers) n ⟨none,some i,some (newUser subject)⟩

/-- The profile of the subject is inserted by a request. -/
def OwnsProfileAt (subject : UUID) (tables : RowLocking.Tables userSchema) (i n : ℕ) : Prop :=
  ∃ r : UserProfile,r.userId=subject ∧
    Owns i (tables.cells .userProfiles) n ⟨none,some i,some r⟩

/-- A request has inserted user and profile. -/
def Made (subject : UUID) (tables : RowLocking.Tables userSchema) (i : ℕ) : Prop :=
  OwnsUser subject tables i ∧ ∃ n,OwnsProfileAt subject tables i n

/-- User and profile are there for a request. -/
def Has (subject : UUID) (tables : RowLocking.Tables userSchema) (i : ℕ) : Prop :=
  Known subject tables ∨ Made subject tables i

/-- A request has no lock on users, profiles and roles of users. -/
structure Untouched (tables : RowLocking.Tables userSchema) (i : ℕ) : Prop where
  /-- Users. -/
  users : Unlocked i (tables.cells .appUsers)
  /-- Profiles. -/
  profiles : Unlocked i (tables.cells .userProfiles)
  /-- Roles of users. -/
  links : Unlocked i (tables.cells .userRoles)

/-- What holds of the tables in every state of a run. -/
structure Sound (subject : UUID) (role : Role) (rows : List Role)
    (tables : RowLocking.Tables userSchema) : Prop where
  /-- Rows that read together conflict with each other nowhere. -/
  apart : ∀ (t : Table) S n m (a b : Row t),mergedAt S (tables.cells t) n=some a →
    mergedAt S (tables.cells t) m=some b → conflict t a b=true → n=m
  /-- The user of the subject is the one that a first request adds. -/
  users : ∀ c∈tables.cells .appUsers,∀ u : AppUser,c.committed=some u ∨ c.working=some u →
    u.externalSubject=subject.str → u=newUser subject
  /-- Committed users are not locked. -/
  unlocked : ∀ c∈tables.cells .appUsers,∀ p,c.holder=some p → c.committed=none
  /-- The subject has the default role only. -/
  links : ∀ c∈tables.cells .userRoles,∀ r : UserRole,c.committed=some r ∨ c.working=some r →
    r.userId=subject → r.roleId=role.id
  /-- A locked profile keeps its owner. -/
  steady : ∀ c∈tables.cells .userProfiles,∀ r : UserProfile,c.committed=some r →
    ∀ p,c.holder=some p → ∃ r' : UserProfile,c.working=some r' ∧ r'.userId=r.userId
  /-- The roles stay. -/
  roles : tables.cells .roles=rows.map fun r => ⟨some r,none,none⟩
  /-- User and profile of the subject are committed together. -/
  together : Vacant subject tables ∨ Known subject tables

end Readings

section Steps

variable {subject : UUID} {role : Role} {rows : List Role} {p i : ℕ}
  {tables tables' : RowLocking.Tables userSchema}

/-- The committed rows are the same, index by index. -/
structure SameCommitted (tables tables' : RowLocking.Tables userSchema) : Prop where
  /-- They stay. -/
  keeps : ∀ (t : Table) (n : ℕ) (c : Cell (Row t)) (r : Row t),(tables.cells t)[n]?=some c → c.committed=some r →
    ∃ c' : Cell (Row t),(tables'.cells t)[n]?=some c' ∧ c'.committed=some r
  /-- No other row is committed. -/
  reflects : ∀ (t : Table) (c' : Cell (Row t)) (r : Row t),c'∈tables'.cells t → c'.committed=some r →
    ∃ c∈tables.cells t,c.committed=some r

/-- A known user stays known where the committed rows are the same. -/
theorem KnownAt.same {n : ℕ} (h : KnownAt subject tables n) (hs : SameCommitted tables tables') :
    KnownAt subject tables' n := by
  obtain ⟨c,r,hc,hr,hsubject⟩ := h
  obtain ⟨c',hc',hr'⟩ := hs.keeps .userProfiles n c r hc hr
  exact ⟨c',r,hc',hr',hsubject⟩

/-- A known user stays known where the committed rows are the same. -/
theorem Known.same (h : Known subject tables) (hs : SameCommitted tables tables') :
    Known subject tables' := by
  obtain ⟨⟨c,hc,hu⟩,n,hn⟩ := h
  obtain ⟨m,hm⟩ := List.getElem?_of_mem hc
  obtain ⟨c',hc',hu'⟩ := hs.keeps .appUsers m c _ hm hu
  exact ⟨⟨c',List.mem_of_getElem? hc',hu'⟩,n,hn.same hs⟩

/-- An unknown subject stays so where the committed rows are the same. -/
theorem Vacant.same (h : Vacant subject tables) (hs : SameCommitted tables tables') :
    Vacant subject tables' := by
  refine ⟨?_,?_,?_⟩
  · intro c hc u hu
    obtain ⟨c₀,hc₀,hu₀⟩ := hs.reflects .appUsers c u hc hu
    exact h.users c₀ hc₀ u hu₀
  · intro c hc r hr
    obtain ⟨c₀,hc₀,hr₀⟩ := hs.reflects .userProfiles c r hc hr
    exact h.profiles c₀ hc₀ r hr₀
  · intro c hc r hr
    obtain ⟨c₀,hc₀,hr₀⟩ := hs.reflects .userRoles c r hc hr
    exact h.links c₀ hc₀ r hr₀

/-- An inserted row is not committed. -/
theorem sameCommitted_insert (t : Table) (row : Row t) :
    SameCommitted tables (tables.write t (tables.cells t++[⟨none,some p,some row⟩])) := by
  constructor
  · intro u n c r hc hr
    by_cases hu : u=t
    · subst hu
      rw [RowLocking.Tables.write_cells_self (_ : RowLocking.Tables userSchema)]
      have hlt := (List.getElem?_eq_some_iff.mp hc).1
      exact ⟨c,(List.getElem?_append_left hlt).trans hc,hr⟩
    · rw [RowLocking.Tables.write_cells_of_ne (_ : RowLocking.Tables userSchema) _ hu]
      exact ⟨c,hc,hr⟩
  · intro u c r hc hr
    by_cases hu : u=t
    · subst hu
      rw [RowLocking.Tables.write_cells_self (_ : RowLocking.Tables userSchema)] at hc
      rcases List.mem_append.mp hc with hold|hnew
      · exact ⟨c,hold,hr⟩
      · rw [List.mem_singleton.mp hnew] at hr
        cases hr
    · rw [RowLocking.Tables.write_cells_of_ne (_ : RowLocking.Tables userSchema) _ hu] at hc
      exact ⟨c,hc,hr⟩

/-- A locked row is not committed. -/
theorem sameCommitted_lock {noted : List ℕ} {q : UserProfile → Bool}
    {g : UserProfile → Option UserProfile}
    (hcells : tables'.cells=(tables.write .userProfiles
      (lockRows p noted q g (tables.cells .userProfiles))).cells) :
    SameCommitted tables tables' := by
  have hother : ∀ u,u≠.userProfiles → tables'.cells u=tables.cells u := by
    intro u hu
    rw [hcells]
    exact RowLocking.Tables.write_cells_of_ne _ _ hu
  have hself : tables'.cells .userProfiles=
      lockRows p noted q g (tables.cells .userProfiles) := by
    rw [hcells]
    exact RowLocking.Tables.write_cells_self (_ : RowLocking.Tables userSchema) _ _
  have hcommitted : ∀ n (c : Cell UserProfile),(if n∈noted then c.lock p q g else c).committed=
      c.committed := by
    intro n c
    split
    · exact Cell.lock_committed p q g c
    · rfl
  constructor
  · intro u n c r hc hr
    by_cases hu : u=.userProfiles
    · subst hu
      refine ⟨if n∈noted then c.lock p q g else c,?_,(hcommitted n c).trans hr⟩
      rw [hself,getElem?_lockRows,hc,Option.map_some]
    · rw [hother u hu]
      exact ⟨c,hc,hr⟩
  · intro u c r hc hr
    by_cases hu : u=.userProfiles
    · subst hu
      rw [hself] at hc
      obtain ⟨n,hn⟩ := List.getElem?_of_mem hc
      rw [getElem?_lockRows] at hn
      obtain ⟨c₀,hc₀,rfl⟩ := Option.map_eq_some_iff.mp hn
      exact ⟨c₀,List.mem_of_getElem? hc₀,(hcommitted n c₀).symm.trans hr⟩
    · rw [hother u hu] at hc
      exact ⟨c,hc,hr⟩

/-- A rollback changes no committed row. -/
theorem sameCommitted_release : SameCommitted tables (tables.release p) := by
  constructor
  · intro t n c r hc hr
    refine ⟨c.release p,?_,(Cell.release_committed p c).trans hr⟩
    show ((tables.cells t).map (·.release p))[n]?=_
    rw [List.getElem?_map,hc]
    rfl
  · intro t c r hc hr
    obtain ⟨c₀,hc₀,rfl⟩ := List.mem_map.mp hc
    exact ⟨c₀,hc₀,(Cell.release_committed p c₀).symm.trans hr⟩

/-- Equal cells have the same committed rows. -/
theorem sameCommitted_of_cells (h : tables'.cells=tables.cells) : SameCommitted tables tables' := by
  constructor
  · intro t n c r hc hr
    rw [h]
    exact ⟨c,hc,hr⟩
  · intro t c r hc hr
    rw [h] at hc
    exact ⟨c,hc,hr⟩

/-- Two rows conflict in either order. -/
theorem conflict_comm (t : Table) (a b : Row t) : conflict t a b=conflict t b a := by
  cases t with
  | auditEvents => rfl
  | _ => simp only [conflict,Bool.beq_comm]

/-- The rows that requests of the subject insert. -/
def Fitting (subject : UUID) (role : Role) : (t : Table) → Row t → Prop
  | .appUsers,row => row=newUser subject
  | .userProfiles,_ => True
  | .userRoles,row => row=⟨subject,role.id⟩
  | .auditEvents,_ => True
  | _,_ => False

/-- An insertion. -/
theorem Sound.insert (h : Sound subject role rows tables) {t : Table} {row : Row t}
    (hfitting : Fitting subject role t row)
    (hfire : tables.fire p (.insert t row)=some (some .inserted,tables'))
    (htables : tables'=tables.write t (tables.cells t++[⟨none,some p,some row⟩])) :
    Sound subject role rows tables' := by
  have hself : tables'.cells t=tables.cells t++[⟨none,some p,some row⟩] := by
    rw [htables]
    exact RowLocking.Tables.write_cells_self (_ : RowLocking.Tables userSchema) _ _
  have hother : ∀ u,u≠t → tables'.cells u=tables.cells u := by
    intro u hu
    rw [htables]
    exact RowLocking.Tables.write_cells_of_ne _ _ hu
  have hsame : SameCommitted tables tables' := htables ▸ sameCommitted_insert t row
  have hcell : ∀ u (c : Cell (Row u)),c∈tables'.cells u → c∈tables.cells u ∨
      ∃ r : Row u,c=⟨none,some p,some r⟩ ∧ Fitting subject role u r := by
    intro u c hc
    by_cases hu : u=t
    · subst hu
      rw [hself] at hc
      rcases List.mem_append.mp hc with hold|hnew
      · exact .inl hold
      · exact .inr ⟨row,List.mem_singleton.mp hnew,hfitting⟩
    · rw [hother u hu] at hc
      exact .inl hc
  refine ⟨?_,?_,?_,?_,?_,?_,h.together.imp (·.same hsame) (·.same hsame)⟩
  · intro u S n m a b ha hb hconflict
    by_cases hu : u=t
    · subst hu
      rw [hself,mergedAt_append] at ha hb
      have hnew : ∀ r : Row u,(⟨none,some p,some row⟩ : Cell (Row u)).merged S=some r →
          p∈S ∧ r=row := by
        intro r hr
        by_cases hp : p∈S
        · rw [Cell.merged_of_holder rfl hp] at hr
          exact ⟨hp,(Option.some.inj hr).symm⟩
        · simp [Cell.merged,hp] at hr
      have hfree : ∀ k (r : Row u),p∈S → mergedAt S (tables.cells u) k=some r →
          conflict u row r=false := by
        intro k r hp hr
        obtain ⟨c,hc,hcr⟩ := Option.bind_eq_some_iff.mp hr
        exact RowLocking.Tables.apart_of_inserted hfire (List.mem_of_getElem? hc) hp hcr
      by_cases hn : n=(tables.cells u).length
      · rw [if_pos hn] at ha
        obtain ⟨hp,rfl⟩ := hnew a ha
        by_cases hm : m=(tables.cells u).length
        · rw [hn,hm]
        · rw [if_neg hm] at hb
          rw [hfree m b hp hb] at hconflict
          cases hconflict
      · rw [if_neg hn] at ha
        by_cases hm : m=(tables.cells u).length
        · rw [if_pos hm] at hb
          obtain ⟨hp,rfl⟩ := hnew b hb
          rw [conflict_comm,hfree n a hp ha] at hconflict
          cases hconflict
        · rw [if_neg hm] at hb
          exact h.apart u S n m a b ha hb hconflict
    · rw [hother u hu] at ha hb
      exact h.apart u S n m a b ha hb hconflict
  · intro c hc u hu hsubject
    rcases hcell .appUsers c hc with hold|⟨r,rfl,hr⟩
    · exact h.users c hold u hu hsubject
    · rcases hu with hu|hu
      · cases hu
      · rw [←Option.some.inj hu]
        exact hr
  · intro c hc q hq
    rcases hcell .appUsers c hc with hold|⟨r,rfl,_⟩
    · exact h.unlocked c hold q hq
    · rfl
  · intro c hc l hl hsubject
    rcases hcell .userRoles c hc with hold|⟨r,rfl,hr⟩
    · exact h.links c hold l hl hsubject
    · rcases hl with hl|hl
      · cases hl
      · rw [←Option.some.inj hl,show r=⟨subject,role.id⟩ from hr]
  · intro c hc r hr q hq
    rcases hcell .userProfiles c hc with hold|⟨_,rfl,_⟩
    · exact h.steady c hold r hr q hq
    · cases hr
  · have hne : Table.roles≠t := by
      rintro rfl
      exact hfitting
    rw [hother .roles hne]
    exact h.roles

/-- The version that a lock leaves has the key of the version before. -/
theorem merged_updated {S : Set ℕ} {noted : List ℕ} {q : UserProfile → Bool}
    {payload : UpdateProfileRequest} {cells : List (Cell UserProfile)} {n : ℕ} {a : UserProfile}
    (hready : ready p noted cells=true)
    (ha : mergedAt S (lockRows p noted q (fun r => some (ProfileRepository.updated payload r))
      cells) n=some a) :
    ∃ a',mergedAt S cells n=some a' ∧ a'.userId=a.userId := by
  by_cases hp : p∈S
  · rw [mergedAt_lockRows_of_mem hready hp] at ha
    split at ha
    · obtain ⟨a',ha',hupdated⟩ := Option.bind_eq_some_iff.mp ha
      split at hupdated
      · exact ⟨a',ha',by rw [←Option.some.inj hupdated]; rfl⟩
      · exact ⟨a',ha',by rw [Option.some.inj hupdated]⟩
    · exact ⟨a,ha,rfl⟩
  · rw [mergedAt_lockRows_of_notMem hready hp] at ha
    exact ⟨a,ha,rfl⟩

/-- A profile update. -/
theorem Sound.update (h : Sound subject role rows tables) {noted : List ℕ}
    {q : UserProfile → Bool} {payload : UpdateProfileRequest}
    (hready : ready p noted (tables.cells .userProfiles)=true)
    (hcells : tables'.cells=(tables.write .userProfiles (lockRows p noted q
      (fun r => some (ProfileRepository.updated payload r)) (tables.cells .userProfiles))).cells) :
    Sound subject role rows tables' := by
  have hother : ∀ u,u≠.userProfiles → tables'.cells u=tables.cells u := by
    intro u hu
    rw [hcells]
    exact RowLocking.Tables.write_cells_of_ne _ _ hu
  have hself : tables'.cells .userProfiles=lockRows p noted q
      (fun r => some (ProfileRepository.updated payload r)) (tables.cells .userProfiles) := by
    rw [hcells]
    exact RowLocking.Tables.write_cells_self (_ : RowLocking.Tables userSchema) _ _
  have hsame : SameCommitted tables tables' := sameCommitted_lock hcells
  refine ⟨?_,?_,?_,?_,?_,?_,h.together.imp (·.same hsame) (·.same hsame)⟩
  · intro u S n m a b ha hb hconflict
    by_cases hu : u=.userProfiles
    · subst hu
      rw [hself] at ha hb
      obtain ⟨a',ha',hkeya⟩ := merged_updated hready ha
      obtain ⟨b',hb',hkeyb⟩ := merged_updated hready hb
      refine h.apart .userProfiles S n m a' b' ha' hb' ?_
      show (a'.userId==b'.userId)=true
      rw [hkeya,hkeyb]
      exact hconflict
    · rw [hother u hu] at ha hb
      exact h.apart u S n m a b ha hb hconflict
  · rw [hother .appUsers (by rintro ⟨⟩)]
    exact h.users
  · rw [hother .appUsers (by rintro ⟨⟩)]
    exact h.unlocked
  · rw [hother .userRoles (by rintro ⟨⟩)]
    exact h.links
  · intro c hc r hr o ho
    rw [hself] at hc
    obtain ⟨n,hn⟩ := List.getElem?_of_mem hc
    rw [getElem?_lockRows] at hn
    obtain ⟨c₀,hc₀,rfl⟩ := Option.map_eq_some_iff.mp hn
    have hmem := List.mem_of_getElem? hc₀
    by_cases hnoted : n∈noted
    · rw [if_pos hnoted] at hr ho ⊢
      rw [Cell.lock_committed] at hr
      unfold Cell.lock at ho ⊢
      split at ho
      · rename_i v hv
        have hkey : v.userId=r.userId := by
          unfold Cell.view at hv
          split at hv
          · rename_i hholder
            obtain ⟨r',hr',hsubject⟩ := h.steady c₀ hmem r hr p hholder
            rw [hr'] at hv
            rw [←Option.some.inj hv,hsubject]
          · rw [hr] at hv
            rw [Option.some.inj hv]
        split at ho
        · rename_i hq
          rw [hv] at *
          simp only [hq,if_true]
          exact ⟨_,rfl,hkey⟩
        · rename_i hq
          simp only [hq]
          exact h.steady c₀ hmem r hr o ho
      · exact h.steady c₀ hmem r hr o ho
    · rw [if_neg hnoted] at hr ho ⊢
      exact h.steady c₀ hmem r hr o ho
  · rw [hother .roles (by rintro ⟨⟩)]
    exact h.roles

/-- A known user stays known after any COMMIT. -/
theorem KnownAt.settle {n : ℕ} (h : KnownAt subject tables n)
    (hs : Sound subject role rows tables) (p : ℕ) : KnownAt subject (tables.settle p) n := by
  obtain ⟨c,r,hc,hr,hsubject⟩ := h
  have hcell : ((tables.settle p).cells .userProfiles)[n]?=some (c.settle p) := by
    show ((tables.cells .userProfiles).map (·.settle p))[n]?=_
    rw [List.getElem?_map,hc]
    rfl
  unfold Cell.settle at hcell
  split at hcell
  · rename_i hp
    obtain ⟨r',hr',hkey⟩ := hs.steady c (List.mem_of_getElem? hc) r hr p hp
    exact ⟨_,r',hcell,hr',hkey.trans hsubject⟩
  · exact ⟨c,r,hcell,hr,hsubject⟩

/-- Committed users and profiles are still committed after a commit. -/
theorem Known.settle (h : Known subject tables) (hs : Sound subject role rows tables) (p : ℕ) :
    Known subject (tables.settle p) := by
  obtain ⟨⟨c,hc,hu⟩,n,hprofile⟩ := h
  constructor
  · refine ⟨c.settle p,List.mem_map_of_mem hc,?_⟩
    unfold Cell.settle
    split
    · rename_i hp
      rw [hs.unlocked c hc p hp] at hu
      cases hu
    · exact hu
  · exact ⟨n,hprofile.settle hs p⟩

/-- A commit publishes what its request has made. -/
theorem Made.settle (h : Made subject tables p) : Known subject (tables.settle p) := by
  obtain ⟨⟨n,hn,_⟩,m,r,hsubject,hm,_⟩ := h
  have hpublished : ∀ {R : Type} {cells : List (Cell R)} {k : ℕ} {r : R},
      cells[k]?=some ⟨none,some p,some r⟩ →
        (cells.map (·.settle p))[k]?=some ⟨some r,none,none⟩ := by
    intro R cells k r hk
    rw [List.getElem?_map,hk,Option.map_some]
    exact congrArg some (if_pos rfl)
  exact ⟨⟨_,List.mem_of_getElem? (hpublished hn),rfl⟩,m,_,r,hpublished hm,rfl,hsubject⟩

/-- The commit of a request that has user and profile. -/
theorem Sound.settle (h : Sound subject role rows tables) (hhas : Has subject tables p) :
    Sound subject role rows (tables.settle p) := by
  refine ⟨?_,?_,?_,?_,?_,?_,?_⟩
  · intro t S n m a b ha hb
    have ha' := (mergedAt_settle p S (tables.cells t) n).symm.trans ha
    have hb' := (mergedAt_settle p S (tables.cells t) m).symm.trans hb
    exact h.apart t _ n m a b ha' hb'
  · intro c hc u hu
    obtain ⟨c₀,hc₀,rfl⟩ := List.mem_map.mp hc
    exact h.users c₀ hc₀ u (Cell.settle_versions hu)
  · intro c hc q hq
    obtain ⟨c₀,hc₀,rfl⟩ := List.mem_map.mp hc
    have heq := (Cell.settle_of_held hq).1
    rw [heq] at hq ⊢
    exact h.unlocked c₀ hc₀ q hq
  · intro c hc l hl
    obtain ⟨c₀,hc₀,rfl⟩ := List.mem_map.mp hc
    exact h.links c₀ hc₀ l (Cell.settle_versions hl)
  · intro c hc r hr q hq
    obtain ⟨c₀,hc₀,rfl⟩ := List.mem_map.mp hc
    have heq := (Cell.settle_of_held hq).1
    rw [heq] at hr hq ⊢
    exact h.steady c₀ hc₀ r hr q hq
  · show (tables.cells .roles).map (·.settle p)=_
    rw [h.roles,List.map_map]
    rfl
  · exact .inr (hhas.elim (fun hk => hk.settle h p) Made.settle)

/-- The end of a request. -/
theorem Sound.release (h : Sound subject role rows tables) (p : ℕ) :
    Sound subject role rows (tables.release p) := by
  have hsame : SameCommitted tables (tables.release p) := sameCommitted_release
  refine ⟨?_,?_,?_,?_,?_,?_,h.together.imp (·.same hsame) (·.same hsame)⟩
  · intro t S n m a b ha hb
    have ha' := (mergedAt_release p S (tables.cells t) n).symm.trans ha
    have hb' := (mergedAt_release p S (tables.cells t) m).symm.trans hb
    exact h.apart t _ n m a b ha' hb'
  · intro c hc u hu
    obtain ⟨c₀,hc₀,rfl⟩ := List.mem_map.mp hc
    exact h.users c₀ hc₀ u (Cell.release_versions hu)
  · intro c hc q hq
    obtain ⟨c₀,hc₀,rfl⟩ := List.mem_map.mp hc
    have heq := (Cell.release_of_held hq).1
    rw [heq] at hq ⊢
    exact h.unlocked c₀ hc₀ q hq
  · intro c hc l hl
    obtain ⟨c₀,hc₀,rfl⟩ := List.mem_map.mp hc
    exact h.links c₀ hc₀ l (Cell.release_versions hl)
  · intro c hc r hr q hq
    obtain ⟨c₀,hc₀,rfl⟩ := List.mem_map.mp hc
    have heq := (Cell.release_of_held hq).1
    rw [heq] at hr hq ⊢
    exact h.steady c₀ hc₀ r hr q hq
  · show (tables.cells .roles).map (·.release p)=_
    rw [h.roles,List.map_map]
    rfl

/-- The table invariant is about the cells alone. -/
theorem Sound.of_cells (h : Sound subject role rows tables) (hcells : tables'.cells=tables.cells) :
    Sound subject role rows tables' := by
  have hsame := sameCommitted_of_cells hcells
  obtain ⟨hapart,husers,hunlocked,hlinks,hsteady,hroles,htogether⟩ := h
  rw [←hcells] at hapart husers hunlocked hlinks hsteady hroles
  exact ⟨hapart,husers,hunlocked,hlinks,hsteady,hroles,
    htogether.imp (·.same hsame) (·.same hsame)⟩

/-- What the step of another request leaves to a request. -/
structure Beside (subject : UUID) (i : ℕ) (tables tables' : RowLocking.Tables userSchema) :
    Prop where
  /-- It gets no lock. -/
  unlocked : ∀ t : Table,Unlocked i (tables.cells t) → Unlocked i (tables'.cells t)
  /-- It keeps its locks. -/
  owns : ∀ (t : Table) (n : ℕ) (c : Cell (Row t)),Owns i (tables.cells t) n c → Owns i (tables'.cells t) n c
  /-- User and profile stay. -/
  known : Known subject tables → Known subject tables'
  /-- The profile stays where it is. -/
  knownAt : ∀ n,KnownAt subject tables n → KnownAt subject tables' n
  /-- The statement it waits in. -/
  noted : tables'.noted i=tables.noted i

/-- Another request's INSERT leaves what this one wrote. -/
theorem beside_insert (hne : p≠i) (t : Table) (row : Row t) :
    Beside subject i tables (tables.write t (tables.cells t++[⟨none,some p,some row⟩])) := by
  have hsame : SameCommitted tables
      (tables.write t (tables.cells t++[⟨none,some p,some row⟩])) := sameCommitted_insert t row
  refine ⟨?_,?_,(·.same hsame),fun _ => (·.same hsame),rfl⟩
  · intro u h
    by_cases hu : u=t
    · subst hu
      rw [RowLocking.Tables.write_cells_self (_ : RowLocking.Tables userSchema)]
      exact h.append fun heq => hne (Option.some.inj heq)
    · rwa [RowLocking.Tables.write_cells_of_ne (_ : RowLocking.Tables userSchema) _ hu]
  · intro u n c h
    by_cases hu : u=t
    · subst hu
      rw [RowLocking.Tables.write_cells_self (_ : RowLocking.Tables userSchema)]
      exact h.append _
    · rwa [RowLocking.Tables.write_cells_of_ne (_ : RowLocking.Tables userSchema) _ hu]

/-- Another request's statement leaves what this one wrote. -/
theorem beside_lock (hne : p≠i) {noted : List ℕ} {q : UserProfile → Bool}
    {g : UserProfile → Option UserProfile}
    (hready : ready p noted (tables.cells .userProfiles)=true)
    (hcells : tables'.cells=(tables.write .userProfiles
      (lockRows p noted q g (tables.cells .userProfiles))).cells)
    (hnoted : tables'.noted i=tables.noted i) : Beside subject i tables tables' := by
  have hsame : SameCommitted tables tables' := sameCommitted_lock hcells
  refine ⟨?_,?_,(·.same hsame),fun _ => (·.same hsame),hnoted⟩
  · intro u h
    rw [hcells]
    by_cases hu : u=.userProfiles
    · subst hu
      rw [RowLocking.Tables.write_cells_self (_ : RowLocking.Tables userSchema)]
      exact h.lockRows_of_ne hne
    · rwa [RowLocking.Tables.write_cells_of_ne (_ : RowLocking.Tables userSchema) _ hu]
  · intro u n c h
    rw [hcells]
    by_cases hu : u=.userProfiles
    · subst hu
      rw [RowLocking.Tables.write_cells_self (_ : RowLocking.Tables userSchema)]
      exact h.lockRows_of_ne hne hready
    · rwa [RowLocking.Tables.write_cells_of_ne (_ : RowLocking.Tables userSchema) _ hu]

/-- Another request's COMMIT leaves what this one wrote. -/
theorem beside_settle (hne : p≠i) (hs : Sound subject role rows tables) :
    Beside subject i tables (tables.settle p) :=
  ⟨fun _ h => h.settle p,fun _ _ _ h => h.settle_of_ne hne,fun h => h.settle hs p,
    fun _ h => h.settle hs p,rfl⟩

/-- Another request's ROLLBACK leaves what this one wrote. -/
theorem beside_release (hne : p≠i) : Beside subject i tables (tables.release p) := by
  have hsame : SameCommitted tables (tables.release p) := sameCommitted_release
  exact ⟨fun _ h => h.release p,fun _ _ _ h => h.release_of_ne hne,(·.same hsame),
    fun _ => (·.same hsame),Function.update_of_ne hne.symm _ _⟩

/-- Equal cells leave what this request wrote. -/
theorem beside_of_cells (hcells : tables'.cells=tables.cells)
    (hnoted : tables'.noted i=tables.noted i) : Beside subject i tables tables' := by
  have hsame := sameCommitted_of_cells hcells
  refine ⟨fun t h => ?_,fun t n c h => ?_,(·.same hsame),fun _ => (·.same hsame),hnoted⟩
  · rwa [hcells]
  · rwa [hcells]

end Steps

section Facts

variable {subject : UUID} {role : Role} {rows : List Role} {p i : ℕ}
  {tables tables' : RowLocking.Tables userSchema} {s s' : Shared} {phase : Phase}

/-- The unflushed changes of a session that waits in no statement. -/
structure Pending (s : Shared) (i : ℕ) (changes : List Change) : Prop where
  /-- The changes. -/
  unflushed : s.unflushed i=changes
  /-- It waits nowhere. -/
  noted : s.tables.noted i=none

/-- A profile update of the subject. -/
def profileChange (subject : UUID) (payload : UpdateProfileRequest) : Change :=
  .assign .userProfiles (fun r => r.userId==subject) (ProfileRepository.updated payload)

/-- The profile of the subject is at an index for a request. -/
def SeesAt (subject : UUID) (tables : RowLocking.Tables userSchema) (i n : ℕ) : Prop :=
  KnownAt subject tables n ∨ OwnsProfileAt subject tables i n

/-- A waiting update has noted the profile of the subject. -/
def Noted (subject : UUID) (tables : RowLocking.Tables userSchema) (i : ℕ) : Prop :=
  ∀ noted,tables.noted i=some noted → noted.Nodup ∧ ∃ n∈noted,SeesAt subject tables i n

/-- What holds for a request in a phase. -/
def Facts (subject : UUID) (role : Role) (s : Shared) (i : ℕ) : Phase → Prop
  | .start => Pending s i [] ∧ Untouched s.tables i
  | .absent => Pending s i [] ∧ Untouched s.tables i
  | .adding => Pending s i [.add .appUsers (newUser subject)] ∧ Untouched s.tables i
  | .creating =>
      (Pending s i [.add .appUsers (newUser subject),.add .userProfiles (newProfile subject)] ∧
        Untouched s.tables i) ∨
      (Pending s i [.add .userProfiles (newProfile subject)] ∧ OwnsUser subject s.tables i ∧
        Unlocked i (s.tables.cells .userProfiles) ∧ Unlocked i (s.tables.cells .userRoles)) ∨
      (Pending s i [] ∧ Made subject s.tables i ∧ Unlocked i (s.tables.cells .userRoles))
  | .created =>
      Pending s i [] ∧ Made subject s.tables i ∧ Unlocked i (s.tables.cells .userRoles)
  | .linking =>
      (Pending s i [.add .userRoles ⟨subject,role.id⟩] ∧ Made subject s.tables i ∧
        Unlocked i (s.tables.cells .userRoles)) ∨
      (Pending s i [] ∧ Made subject s.tables i)
  | .known => Pending s i [] ∧ Has subject s.tables i
  | .updating =>
      (∃ payload,s.unflushed i=[profileChange subject payload] ∧ Has subject s.tables i ∧
        Noted subject s.tables i) ∨
      (Pending s i [] ∧ Has subject s.tables i)
  | .recording =>
      (∃ row,valid .auditEvents row=true ∧ Pending s i [.add .auditEvents row] ∧
        Has subject s.tables i) ∨
      (Pending s i [] ∧ Has subject s.tables i)
  | .done => True
  | .lost => True

/-- A written user row stays through the steps of others. -/
theorem OwnsUser.beside (h : OwnsUser subject tables i) (hb : Beside subject i tables tables') :
    OwnsUser subject tables' i := by
  obtain ⟨n,hn⟩ := h
  exact ⟨n,hb.owns .appUsers n _ hn⟩

/-- A written profile stays through the steps of others. -/
theorem OwnsProfileAt.beside {n : ℕ} (h : OwnsProfileAt subject tables i n)
    (hb : Beside subject i tables tables') : OwnsProfileAt subject tables' i n := by
  obtain ⟨r,hr,hn⟩ := h
  exact ⟨r,hr,hb.owns .userProfiles n _ hn⟩

/-- What was made stays made through the steps of others. -/
theorem Made.beside (h : Made subject tables i) (hb : Beside subject i tables tables') :
    Made subject tables' i := by
  obtain ⟨huser,n,hn⟩ := h
  exact ⟨huser.beside hb,n,hn.beside hb⟩

/-- What a request has it keeps through the steps of others. -/
theorem Has.beside (h : Has subject tables i) (hb : Beside subject i tables tables') :
    Has subject tables' i := h.imp hb.known (·.beside hb)

/-- A request that wrote nothing stays so through the steps of others. -/
theorem Untouched.beside (h : Untouched tables i) (hb : Beside subject i tables tables') :
    Untouched tables' i :=
  ⟨hb.unlocked .appUsers h.users,hb.unlocked .userProfiles h.profiles,
    hb.unlocked .userRoles h.links⟩

/-- What a request noted stays noted through the steps of others. -/
theorem Noted.beside (h : Noted subject tables i) (hb : Beside subject i tables tables') :
    Noted subject tables' i := by
  intro noted hnoted
  rw [hb.noted] at hnoted
  obtain ⟨hnodup,n,hn,hsees⟩ := h noted hnoted
  exact ⟨hnodup,n,hn,hsees.imp (hb.knownAt n) (·.beside hb)⟩

/-- Its unflushed changes stay pending through the steps of others. -/
theorem Pending.beside {changes : List Change} (h : Pending s i changes)
    (hb : Beside subject i s.tables s'.tables) (hunflushed : s'.unflushed i=s.unflushed i) :
    Pending s' i changes := ⟨hunflushed.trans h.unflushed,hb.noted.trans h.noted⟩

/-- The facts of a request survive the steps of the others. -/
theorem Facts.beside (h : Facts subject role s i phase)
    (hb : Beside subject i s.tables s'.tables) (hunflushed : s'.unflushed i=s.unflushed i) :
    Facts subject role s' i phase := by
  cases phase with
  | start => exact ⟨h.1.beside hb hunflushed,h.2.beside hb⟩
  | absent => exact ⟨h.1.beside hb hunflushed,h.2.beside hb⟩
  | adding => exact ⟨h.1.beside hb hunflushed,h.2.beside hb⟩
  | creating =>
    rcases h with ⟨hp,hu⟩|⟨hp,hu,hprofiles,hlinks⟩|⟨hp,hm,hlinks⟩
    · exact .inl ⟨hp.beside hb hunflushed,hu.beside hb⟩
    · exact .inr (.inl ⟨hp.beside hb hunflushed,hu.beside hb,hb.unlocked _ hprofiles,
        hb.unlocked _ hlinks⟩)
    · exact .inr (.inr ⟨hp.beside hb hunflushed,hm.beside hb,hb.unlocked _ hlinks⟩)
  | created =>
    obtain ⟨hp,hm,hlinks⟩ := h
    exact ⟨hp.beside hb hunflushed,hm.beside hb,hb.unlocked _ hlinks⟩
  | linking =>
    rcases h with ⟨hp,hm,hlinks⟩|⟨hp,hm⟩
    · exact .inl ⟨hp.beside hb hunflushed,hm.beside hb,hb.unlocked _ hlinks⟩
    · exact .inr ⟨hp.beside hb hunflushed,hm.beside hb⟩
  | known => exact ⟨h.1.beside hb hunflushed,h.2.beside hb⟩
  | updating =>
    rcases h with ⟨payload,hp,hhas,hnoted⟩|⟨hp,hhas⟩
    · exact .inl ⟨payload,hunflushed.trans hp,hhas.beside hb,hnoted.beside hb⟩
    · exact .inr ⟨hp.beside hb hunflushed,hhas.beside hb⟩
  | recording =>
    rcases h with ⟨row,hvalid,hp,hhas⟩|⟨hp,hhas⟩
    · exact .inl ⟨row,hvalid,hp.beside hb hunflushed,hhas.beside hb⟩
    · exact .inr ⟨hp.beside hb hunflushed,hhas.beside hb⟩
  | done => trivial
  | lost => trivial

/-- What overlapping requests of the subject keep. -/
structure Inv (subject : UUID) (role : Role) (rows : List Role) (s : Shared)
    (states : ℕ → Phase) : Prop where
  /-- The tables. -/
  sound : Sound subject role rows s.tables
  /-- The requests. -/
  facts : ∀ i,Facts subject role s i (states i)

/-- One request goes on, the others keep their facts. -/
theorem Inv.step {states : ℕ → Phase} (h : Inv subject role rows s states)
    (hsound : Sound subject role rows s'.tables)
    (hown : Facts subject role s' p phase)
    (hb : ∀ i,p≠i → Beside subject i s.tables s'.tables)
    (hunflushed : ∀ i,p≠i → s'.unflushed i=s.unflushed i) :
    Inv subject role rows s' (Function.update states p phase) := by
  refine ⟨hsound,fun i => ?_⟩
  by_cases hi : i=p
  · subst hi
    rwa [Function.update_self]
  · rw [Function.update_of_ne hi]
    exact (h.facts i).beside (hb i (Ne.symm hi)) (hunflushed i (Ne.symm hi))

end Facts

section Views

variable {subject : UUID} {role : Role} {rows : List Role} {i : ℕ}
  {tables : RowLocking.Tables userSchema}

/-- While a request holds the user it has inserted, no row of the subject is
committed. -/
theorem Sound.vacant (h : Sound subject role rows tables) (howns : OwnsUser subject tables i) :
    Vacant subject tables := by
  refine h.together.resolve_right fun hknown => ?_
  obtain ⟨n,hn,_⟩ := howns
  obtain ⟨c,hc,hu⟩ := hknown.user
  obtain ⟨m,hm⟩ := List.getElem?_of_mem hc
  have hholder : c.holder=none := by
    cases hp : c.holder with
    | none => rfl
    | some p =>
      rw [h.unlocked c hc p hp] at hu
      cases hu
  have hmine : mergedAt {i} (tables.cells .appUsers) n=some (newUser subject) := by
    rw [mergedAt,hn]
    show (⟨none,some i,some _⟩ : Cell AppUser).merged {i}=_
    exact Cell.merged_of_holder rfl (Set.mem_singleton i)
  have hother : mergedAt {i} (tables.cells .appUsers) m=some (newUser subject) := by
    rw [mergedAt,hm]
    show c.merged {i}=_
    rw [Cell.merged,hholder]
    exact hu
  have hconflict : conflict .appUsers (newUser subject) (newUser subject)=true := by
    show (subject==subject || subject.str==subject.str)=true
    rw [beq_self_eq_true]
    rfl
  have hnm : n=m := h.apart .appUsers {i} n m _ _ hmine hother hconflict
  subst hnm
  rw [hn] at hm
  rw [←Option.some.inj hm] at hu
  cases hu

/-- The profile of the subject in the eyes of a request. -/
theorem Sound.sees (h : Sound subject role rows tables) {n : ℕ}
    (hsees : SeesAt subject tables i n) :
    ∃ r : UserProfile,mergedAt {i} (tables.cells .userProfiles) n=some r ∧ r.userId=subject := by
  rcases hsees with ⟨c,r,hc,hr,hsubject⟩|⟨r,hsubject,hn,_⟩
  · rw [mergedAt,hc]
    show ∃ r : UserProfile,c.merged {i}=some r ∧ _
    rw [Cell.merged_singleton,Cell.view]
    split
    · rename_i hp
      obtain ⟨r',hr',hkey⟩ := h.steady c (List.mem_of_getElem? hc) r hr i hp
      exact ⟨r',hr',hkey.trans hsubject⟩
    · exact ⟨r,hr,hsubject⟩
  · refine ⟨r,?_,hsubject⟩
    rw [mergedAt,hn]
    show (⟨none,some i,some _⟩ : Cell UserProfile).merged {i}=_
    exact Cell.merged_of_holder rfl (Set.mem_singleton i)

/-- A request that has its user sees one. -/
theorem Has.sees (h : Has subject tables i) : ∃ n,SeesAt subject tables i n := by
  rcases h with ⟨_,n,hn⟩|⟨_,n,hn⟩
  · exact ⟨n,.inl hn⟩
  · exact ⟨n,.inr hn⟩

/-- Two profiles of one user are at the same index. -/
theorem Sound.profile_index (h : Sound subject role rows tables) {S : Set ℕ} {n m : ℕ}
    {a b : UserProfile} (ha : mergedAt S (tables.cells .userProfiles) n=some a)
    (hb : mergedAt S (tables.cells .userProfiles) m=some b) (hsa : a.userId=subject)
    (hsb : b.userId=subject) : n=m := by
  refine h.apart .userProfiles S n m a b ha hb ?_
  show (a.userId==b.userId)=true
  rw [hsa,hsb]
  exact beq_self_eq_true _

/-- What a cell shows a request is among the rows it can read. -/
theorem mem_visible {t : Table} {n : ℕ} {r : Row t}
    (h : mergedAt {i} (tables.cells t) n=some r) : r∈tables.visible i t := by
  obtain ⟨c,hc,hr⟩ := Option.bind_eq_some_iff.mp h
  rw [Cell.merged_singleton] at hr
  exact List.mem_filterMap.mpr ⟨c,List.mem_of_getElem? hc,hr⟩

end Views

end BackendPlatform.OverlappingContacts
