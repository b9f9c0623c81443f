import BackendPlatform.LastingRows
import BackendPlatform.OverlappingRuns
import BackendPlatform.SessionInvariants

/-!
# What the user service never takes back

Under any interleaving of requests the committed users, roles, permissions,
their links and the audit events stay as they were written, and a profile
stays the profile of its user. Changes wait in the session of their request
until a flush writes them, so the invariant also looks at what is unflushed.
-/

set_option autoImplicit false

namespace BackendPlatform.LastingUsers

open ProgramTrees InterleavedRuns TransactionalTables RowLocking LastingRows
open UserRecords UserRequests ConcurrentSessions SessionInvariants
open AuthRecords (UUID)
open OverlappingRuns (sampleUpdate effects)
open UserSteps (seededTables)
open FirstContacts (sampleClient)

/-- A version that may follow a row: only profiles are ever rewritten. -/
def Later : (t : Table) → Row t → Row t → Prop
  | .userProfiles,a,b => b.userId=a.userId
  | _,a,b => b=a

/-- Every row is a later version of itself. -/
theorem Later.refl (t : Table) (r : Row t) : Later t r r := by
  cases t <;> exact rfl

/-- A later version of a later version is a later version. -/
theorem Later.trans (t : Table) (a b c : Row t) (h : Later t a b) (h' : Later t b c) :
    Later t a c := by
  cases t <;> exact Eq.trans h' h

/-- Every table of the service is a history. -/
def recordAgeing : Ageing userSchema := ⟨fun _ => True,Later,Later.refl,Later.trans⟩

/-- A change that only makes rows older. -/
def Lawful : Change → Prop
  | .add _ _ => True
  | .assign t isRow f => ∀ r, isRow r=true → Later t r (f r)

/-- Only such changes are asked for. -/
abbrev Respects : Effect → Prop := Asks Lawful

section Programs

variable {α β : Type}

/-- Every effect of an action respects the histories. -/
abbrev Ageless (p : Action α) : Prop := p.Within Respects

/-- Two ageless parts in sequence are ageless. -/
theorem ageless_bind {p : Action α} {f : α → Action β} (hp : Ageless p)
    (hf : ∀ a, Ageless (f a)) : Ageless (p.bind f) := Program.within_bind hp hf

/-- Raising the failure of an answer ages no row. -/
theorem ageless_raiseFailed (reply : Except Failure α) : Ageless (raiseFailed reply) := by
  cases reply <;> trivial

/-- Picking a row from a result ages none. -/
theorem ageless_scalarOneOrNone (rows : List α) : Ageless (scalarOneOrNone rows) := by
  unfold scalarOneOrNone
  split <;> trivial

/-- A query for at most one row. -/
theorem ageless_query (t : Table) (q : Row t → Bool) :
    Ageless ((select t q).bind scalarOneOrNone) :=
  ageless_bind ⟨trivial,fun _ => ageless_raiseFailed _⟩ ageless_scalarOneOrNone

/-- An object that is added and flushed. -/
theorem ageless_addFlush {t : Table} {row : Row t} {next : Action α} (hnext : Ageless next) :
    Ageless ((add t row).bind fun _ => flush.bind fun _ => next) :=
  ageless_bind ⟨trivial,fun _ => trivial⟩ fun _ =>
    ageless_bind ⟨trivial,fun _ => ageless_raiseFailed _⟩ fun _ => hnext

/-- A flush writes the changes that were made ageless before. -/
theorem ageless_flush : Ageless flush := ⟨trivial,fun _ => ageless_raiseFailed _⟩

/-- A COMMIT ages no row. -/
theorem ageless_commit : Ageless commit := ⟨trivial,fun _ => ageless_raiseFailed _⟩

/-- Logging adds a row and ages none. -/
theorem ageless_logEvent (eventType outcome : String) (actor target : Option UUID)
    (ip ua : Option String) (payload : List (String×PayloadValue)) :
    Ageless (AuditService.logEvent eventType outcome actor target ip ua payload) :=
  ageless_bind ⟨trivial,fun _ => trivial⟩ fun _ => ageless_flush

/-- A role is linked by a new row. -/
theorem ageless_assignRoleToUser (userId roleId : UUID) :
    Ageless (RBACRepository.assignRoleToUser userId roleId) := by
  refine ageless_bind ⟨trivial,fun _ => ageless_raiseFailed _⟩ fun rows =>
    ageless_bind (ageless_scalarOneOrNone rows) fun found => ?_
  cases found with
  | some link => trivial
  | none => exact ageless_bind ⟨trivial,fun _ => trivial⟩ fun _ => ageless_flush

/-- A first contact adds rows and ages none. -/
theorem ageless_bootstrapFromSubject (subject : UUID) (ip ua : Option String) :
    Ageless (UserService.bootstrapFromSubject subject ip ua) := by
  refine ageless_bind (ageless_query _ _) fun found => ?_
  cases found with
  | some user => trivial
  | none =>
    refine ageless_bind ?_ fun user => ageless_bind ?_ fun _ =>
      ageless_bind (ageless_logEvent _ _ _ _ ip ua _) fun _ => trivial
    · exact ageless_bind ⟨trivial,fun _ => trivial⟩ fun _ =>
        ageless_addFlush (α := AppUser) trivial
    · refine ageless_bind (ageless_query _ _) fun role => ?_
      cases role with
      | none => trivial
      | some role => exact ageless_assignRoleToUser _ _

/-- Building the context ages no row. -/
theorem ageless_getCurrentContext (c : ClientRequest) :
    Ageless (Endpoints.getCurrentContext c) := by
  unfold Endpoints.getCurrentContext
  split
  · trivial
  · refine ageless_bind ?_ fun _ => ageless_bind (ageless_bind
      (ageless_bootstrapFromSubject _ _ _) fun user => ageless_bind (ageless_query _ _)
      fun profile => ?_) fun context => ?_
    · unfold Endpoints.ensureAccessSessionActive
      split <;> trivial
    · cases profile with
      | none => trivial
      | some profile =>
        exact ageless_bind (ageless_bind ⟨trivial,fun _ => ageless_raiseFailed _⟩ fun _ => trivial)
          fun _ => ageless_bind ⟨trivial,fun _ => ageless_raiseFailed _⟩ fun _ => trivial
    · simp only [Program.monad_bind,Program.monad_throw]
      split
      · trivial
      · refine ageless_bind (p := changed) ⟨trivial,fun _ => trivial⟩ fun dirty => ?_
        split
        · exact ageless_bind ageless_commit fun _ => trivial
        · trivial

/-- The permission check ages no row. -/
theorem ageless_ensurePermission (permissions : List String) (required : String) :
    Ageless (Endpoints.ensurePermission permissions required) := by
  unfold Endpoints.ensurePermission
  split <;> trivial

/-- Validation ages no row. -/
theorem ageless_validated (parameter : Option α) : Ageless (Endpoints.validated parameter) := by
  cases parameter <;> trivial

/-- The rate limit ages no row. -/
theorem ageless_rateLimit (limited : Option Failure) : Ageless (Endpoints.rateLimit limited) := by
  cases limited <;> trivial

/-- Looking a user up ages no row. -/
theorem ageless_getUserById (userId : UUID) : Ageless (UserService.getUserById userId) := by
  refine ageless_bind (ageless_query _ _) fun found => ?_
  cases found <;> trivial

/-- A profile update changes its names and keeps its owner. -/
theorem ageless_updateOwnProfile (userId actor : UUID) (payload : UpdateProfileRequest)
    (ip ua : Option String) :
    Ageless (UserService.updateOwnProfile userId actor payload ip ua) := by
  refine ageless_bind (ageless_query _ _) fun found => ?_
  cases found with
  | none => trivial
  | some profile =>
    refine ageless_bind ?_ fun _ => ageless_bind (ageless_logEvent _ _ _ _ ip ua _)
      fun _ => trivial
    exact ageless_bind ⟨fun _ _ => rfl,fun _ => trivial⟩ fun _ =>
      ageless_bind ageless_flush fun _ => trivial

/-- Assigning a role adds rows and ages none. -/
theorem ageless_assignRole (c : ClientRequest) (context : UserContext) (userId : UUID)
    (payload : AssignRoleRequest) : Ageless (Endpoints.assignRole c context userId payload) := by
  refine ageless_bind (ageless_ensurePermission _ _) fun _ =>
    ageless_bind (ageless_getUserById userId) fun _ =>
    ageless_bind (ageless_bind (ageless_query _ _) fun role => ?_) fun _ =>
    ageless_bind (ageless_logEvent _ _ _ _ _ _ _) fun _ =>
    ageless_bind ageless_commit fun _ => trivial
  cases role with
  | none => trivial
  | some role => exact ageless_assignRoleToUser _ _

/-- No request takes back what lasts. -/
theorem ageless_respond (c : ClientRequest) : Ageless (respond c) := by
  have hcontext := ageless_getCurrentContext c
  unfold respond
  split
  · exact ageless_bind hcontext fun _ => trivial
  · exact ageless_bind hcontext fun context => ageless_bind (ageless_validated _) fun userId =>
      ageless_bind (ageless_ensurePermission _ _) fun _ =>
      ageless_bind (ageless_getUserById userId) fun _ => trivial
  · exact ageless_bind hcontext fun _ =>
      ageless_bind (ageless_ensurePermission _ _) fun _ => trivial
  · exact ageless_bind (ageless_rateLimit _) fun _ => ageless_bind hcontext fun context =>
      ageless_bind (ageless_validated _) fun payload =>
      ageless_bind (ageless_ensurePermission _ _) fun _ =>
      ageless_bind (ageless_updateOwnProfile _ _ payload _ _) fun _ =>
      ageless_bind ageless_commit fun _ => trivial
  · exact ageless_bind hcontext fun _ => trivial
  · exact ageless_bind (ageless_rateLimit _) fun _ => ageless_bind hcontext fun context =>
      ageless_bind (ageless_validated _) fun target =>
      ageless_bind (ageless_validated _) fun payload => ageless_assignRole c context target payload
  · exact ageless_bind hcontext fun _ => trivial

end Programs

section Runs

/-- Writes of lawful changes, rollbacks and commits make no row younger. -/
theorem upkeep : Upkeep recordAgeing.Sound Lawful recordAgeing.Lasts where
  refl := .refl recordAgeing
  write pid change tables reply tables' h hchange hwrite := by
    cases change with
    | add t row =>
      obtain ⟨⟨inserted,tables₁⟩,hinsert,heq⟩ := Option.map_eq_some_iff.mp hwrite
      cases heq
      have hlawful : recordAgeing.Respects (.insert t row) := trivial
      exact h.fire hlawful hinsert
    | assign t isRow f =>
      obtain ⟨⟨count,tables₁⟩,hupdate,heq⟩ := Option.map_eq_some_iff.mp hwrite
      cases heq
      have hlawful : recordAgeing.Respects (.update t isRow f) := fun _ => hchange
      exact h.fire hlawful hupdate
  release pid tables h := h.release pid
  settle pid tables h := by
    have hlawful : recordAgeing.Respects .commit := trivial
    exact h.fire (p := pid) hlawful rfl

/-- Only requests to the service are started. -/
def Starts (_ : UserSystem) : UserMove → Prop
  | .spawn program => ∃ client, program=respond client
  | _ => True

variable {a b : UserSystem} {draws : ℕ} {db : UserRecords.Tables}

/-- Tables that age, with sessions that wait to write lawful changes. -/
abbrev Sound : Shared → Prop := Kept recordAgeing.Sound Lawful

/-- Along a run every table lasts. -/
theorem ageing_reaches (ha : Bounded Respects a) (hsound : Sound a.shared)
    (h : userMachine.Reaches Starts a b) :
    Bounded Respects b ∧ Sound b.shared ∧
      recordAgeing.Lasts a.shared.tables b.shared.tables := by
  have htrans : ∀ s₁ s₂ s₃ : Shared, recordAgeing.Lasts s₁.tables s₂.tables →
      recordAgeing.Lasts s₂.tables s₃.tables → recordAgeing.Lasts s₁.tables s₃.tables :=
    fun _ _ _ h h' => h.trans h'
  refine Bounded.reaches (I := Sound)
    (R := fun s s' : Shared => recordAgeing.Lasts s.tables s'.tables) ?_
    (fun s => .refl _ s.tables) htrans
    (fun pid op choice s reply s' hs hop hf => upkeep.fire hs hop hf)
    (fun pid s hs => upkeep.rolledBack hs pid) ha hsound h
  rintro sys p ⟨client,rfl⟩
  exact ageless_respond client

/-- Under any interleaving of requests the committed rows of every table stay
committed, in their order and unchanged, apart from what a profile shows. -/
theorem user_records_last (ha : userMachine.Reaches Starts (idleSystem draws db) a)
    (h : userMachine.Reaches Starts a b) (t : Table) :
    List.SublistForall₂ (Later t) (a.shared.tables.committed t)
      (b.shared.tables.committed t) := by
  have hidle : Bounded Respects (idleSystem draws db) := fun i p hp => by cases hp
  have hsound : Sound (idleSystem draws db).shared := by
    refine ⟨.of_unlocked fun t c hc => ?_,fun _ => by rintro change ⟨⟩⟩
    obtain ⟨r,_,rfl⟩ := List.mem_map.mp hc
    rfl
  obtain ⟨hbound,hsound',_⟩ := ageing_reaches hidle hsound ha
  obtain ⟨_,_,hlasts⟩ := ageing_reaches hbound hsound' h
  exact hlasts.sublist (t := t) trivial

/-- A first contact that updates the profile of its user. -/
def sampleContact : List UserMove :=
  [.spawn (respond sampleUpdate)]++effects 0 27++[.finish 0]

/-- The other displayed name fits its bounds. -/
theorem length_renamed (name : String) (h : some "Grace"=some name) :
    1 ≤ name.length ∧ name.length ≤ 100 := by
  obtain rfl := Option.some.inj h
  decide

/-- A profile with another displayed name. -/
def sampleRenamed : UpdateProfileRequest :=
  {FirstContacts.samplePayload with
    displayName := some "Grace"
    displayNameLength := length_renamed}

/-- Then the user changes the displayed name. -/
def sampleChange : List UserMove :=
  [.spawn (respond (sampleClient (.updateProfile (some sampleRenamed))))]++effects 1 14

/-- The names that the committed profiles display. -/
def displayNames (sys : UserSystem) : List (Option String) :=
  (sys.shared.tables.committed .userProfiles).map UserProfile.displayName

/-- A profile renamed between two reached states, still in its row. -/
theorem user_records_last_contact : ∃ a b : UserSystem,
    userMachine.Reaches Starts (idleSystem 5 (seededTables 5)) a ∧
      userMachine.Reaches Starts a b ∧ displayNames a=[some "Ada"] ∧
      displayNames b=[some "Grace"] ∧
      List.SublistForall₂ (Later .userProfiles) (a.shared.tables.committed .userProfiles)
        (b.shared.tables.committed .userProfiles) := by
  have hnames : ((userMachine.runSchedule (fun _ _ => true) sampleContact
      (idleSystem 5 (seededTables 5))).bind fun a =>
      (userMachine.runSchedule (fun _ _ => true) sampleChange a).map fun b =>
        (displayNames a,displayNames b))=some ([some "Ada"],[some "Grace"]) := by
    decide +kernel
  obtain ⟨a,hcontact,hnames⟩ := Option.bind_eq_some_iff.mp hnames
  obtain ⟨b,hchange,hnames⟩ := Option.map_eq_some_iff.mp hnames
  obtain ⟨hbefore,hafter⟩ := Prod.mk.inj hnames
  have ha : userMachine.Reaches Starts (idleSystem 5 (seededTables 5)) a := by
    refine Machine.Reaches.of_schedule .refl ?_ hcontact
    intro mv hmv s _
    cases mv with
    | spawn p =>
      simp [sampleContact,effects] at hmv
      exact ⟨sampleUpdate,hmv⟩
    | _ => trivial
  have hb : userMachine.Reaches Starts a b := by
    refine Machine.Reaches.of_schedule .refl ?_ hchange
    intro mv hmv s _
    cases mv with
    | spawn p =>
      simp [sampleChange,effects] at hmv
      exact ⟨_,hmv⟩
    | _ => trivial
  exact ⟨a,b,ha,hb,hbefore,hafter,user_records_last ha hb .userProfiles⟩

end Runs

end BackendPlatform.LastingUsers
