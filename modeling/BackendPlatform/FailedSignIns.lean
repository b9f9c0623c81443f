import BackendPlatform.ReachableStates

/-!
# Accounting for failed sign-ins

A wrong password is counted in Redis, may block the account and is audited;
the block and the audit row share one transaction. The audit row carries the
client address and the client program as they came in the request. If one of
them is longer than its column, the insertion fails and the block is lost
with it.
-/

set_option autoImplicit false

namespace BackendPlatform.FailedSignIns

open ProgramTrees TransactionalTables ExpiringStore
open AuthRecords AuthEffects AuthRepositories AuthServices AuthFlows AuthFootprints
open ServerRuns ReachableStates AuthService BruteForceProtectionService

section Guards

variable (d : Deployment) (email password : String) (ip ua : Option String)

/-- The identifier of the `login` scope. -/
def loginIdentifier : String := d.lower email++":"++orUnknown ip

/-- The part of `login` before the password check. -/
def loginGuards : Action (Option LoadedUser) := do
  match ←UserRepository.getByEmail d (d.lower email) with
  | none =>
    assertNotLocked d .login (loginIdentifier d email ip)
    return none
  | some user =>
    if user.row.loginBlocked then
      throw (.accountLoginBlocked d.settings.accountLoginLockedMessage)
    assertNotLocked d .login (loginIdentifier d email ip)
    assertNotLocked d .loginAccount (d.lower email)
    return some user

/-- `password_ok`. -/
def passwordOk (user : Option LoadedUser) : Bool :=
  user.any fun user => PasswordService.verifyPassword password user.row.passwordHash

/-- The part of `login` from the password check on. -/
def judge (user : Option LoadedUser) : Action LoginStepResult :=
  match user with
  | none => rejectPassword d none (d.lower email) (loginIdentifier d email ip) ip ua
  | some user =>
    if !PasswordService.verifyPassword password user.row.passwordHash then
      rejectPassword d (some user) (d.lower email) (loginIdentifier d email ip) ip ua
    else if !user.row.isActive then
      refuse d (some user.row.id) ip ua
        [("email",.str (d.lower email)),("reason",.str "inactive_account")] .invalidCredentials
    else grantAccess d user (d.lower email) (loginIdentifier d email ip) ip ua

/-- A login is its guards followed by the judgement of the password. -/
theorem login_eq : login d email password ip ua=
    (loginGuards d email ip).bind (judge d email password ip ua) := by
  simp only [login,loginGuards,Program.monad_bind,Program.monad_throw,Program.monad_pure,
    Program.bind_assoc]
  refine congrArg (Program.bind _) (funext fun found => ?_)
  cases found with
  | none =>
    dsimp only
    rw [Program.bind_assoc]
    rfl
  | some user =>
    dsimp only
    split
    · rfl
    · rw [Program.bind_assoc]
      refine congrArg (Program.bind _) (funext fun _ => ?_)
      rw [Program.bind_assoc]
      rfl

/-- A wrong password is rejected. -/
theorem judge_of_not_ok {user : Option LoadedUser} (h : passwordOk password user=false) :
    judge d email password ip ua user=
      rejectPassword d user (d.lower email) (loginIdentifier d email ip) ip ua := by
  cases user with
  | none => rfl
  | some user =>
    have hno : PasswordService.verifyPassword password user.row.passwordHash=false := h
    simp [judge,hno]

/-- The guards read accounts and locks only. -/
theorem inside_loginGuards : Inside (loginGuards d email ip)
    [.select .users,.select .twoFactorSecrets,.select .backupCodes,.redisRead .lock] := by
  refine inside_bind ((inside_load _).widen rfl) fun found => ?_
  cases found with
  | none => exact inside_bind ((inside_assertNotLocked _ _ _).widen rfl) fun _ => trivial
  | some user =>
    simp only [Program.monad_bind,Program.monad_throw,Program.monad_pure]
    split
    · trivial
    · refine inside_bind ((inside_assertNotLocked _ _ _).widen rfl) fun _ => ?_
      exact inside_bind ((inside_assertNotLocked _ _ _).widen rfl) fun _ => trivial

/-- The guards return the stored account of the address, if there is one. -/
theorem yields_loginGuards (w : World) : Yields (loginGuards d email ip) w fun o w' =>
    w'.data=w.data ∧ ∀ user, o=.ok (some user) →
      user.row∈w.data.work .users ∧ user.row.email=d.lower (d.lower email) := by
  refine (yields_data (inside_loginGuards d email ip) (by decide) w).and ?_
  refine (yields_load _ w).bind (fun found w₁ hload => ?_) fun _ _ _ _ => nofun
  cases found with
  | none => exact yields_skip (fun _ _ _ => nofun) fun _ _ _ => nofun
  | some user =>
    obtain ⟨hmem,hemail⟩ := hload.2 user rfl
    simp only [Program.monad_bind,Program.monad_throw,Program.monad_pure]
    split
    · exact fun _ => nofun
    · refine yields_skip (fun _ _ => ?_) fun _ _ _ => nofun
      refine yields_skip (fun _ _ => ?_) fun _ _ _ => nofun
      intro user' hu
      cases hu
      exact ⟨hmem,beq_iff_eq.mp hemail⟩

end Guards

section Counting

variable {d : Deployment} {w : World} {bound : ℕ}

/-- What the next increment makes of a counter. -/
def countAt (w : World) (key : RedisKey) : ℕ :=
  ((w.env.tick (w.choices.headD 0)).incremented key).getD 0

/-- The next failure of a scope can be recorded: Redis accepts no lock without
a duration. -/
def Countable (d : Deployment) (scope : Scope) (identifier : String) (w : World) : Prop :=
  0<(policy d.settings scope).lockSeconds ∨
    countAt w (failKey d scope identifier)<(policy d.settings scope).maxAttempts

/-- Counters of a sound Redis can be incremented. -/
theorem incremented_eq (scope : Scope) (identifier : String) (hw : SoundWorld w bound) :
    (w.env.tick (w.choices.headD 0)).incremented (failKey d scope identifier)=
      some (countAt w (failKey d scope identifier)) := by
  have hsome : ∃ n, (w.env.tick (w.choices.headD 0)).incremented
      (failKey d scope identifier)=some n := by
    unfold Environment.incremented
    cases hfound : (w.env.tick (w.choices.headD 0)).redis.lookup
        (w.env.tick (w.choices.headD 0)).clock (failKey d scope identifier) with
    | none => exact ⟨1,rfl⟩
    | some value =>
      obtain ⟨entry,hentry,_,rfl⟩ := Store.lookup_eq_some.mp hfound
      have hsuits := hw.work.suits _ entry hentry
      cases hvalue : entry.value with
      | number n => exact ⟨n+1,rfl⟩
      | _ =>
        rw [hvalue] at hsuits
        exact hsuits.elim
  obtain ⟨n,hn⟩ := hsome
  rw [countAt,hn,Option.getD_some]

/-- The part of `record_failure` after the increment. -/
def afterIncrement (d : Deployment) (scope : Scope) (identifier : String) (attempts : ℕ) :
    Action ℕ := do
  if attempts=1 then
    redisExpire (failKey d scope identifier) (policy d.settings scope).windowSeconds
  if (policy d.settings scope).maxAttempts≤attempts then
    redisSet (lockKey d scope identifier) (.text "1") (policy d.settings scope).lockSeconds
    redisDelete [failKey d scope identifier]
  return attempts

/-- Counting a failure is an INCR and what follows from its answer. -/
theorem recordFailure_eq (d : Deployment) (scope : Scope) (identifier : String) :
    recordFailure d scope identifier=
      (redisIncr (failKey d scope identifier)).bind (afterIncrement d scope identifier) := rfl

/-- How recording a failure ends, given its count. -/
def counted (d : Deployment) (scope : Scope) (attempts : ℕ) : Except Failure ℕ :=
  if 0<(policy d.settings scope).lockSeconds ∨ attempts<(policy d.settings scope).maxAttempts then
    .ok attempts
  else .error .responseError

/-- What the caller is told follows from the count. -/
theorem yields_afterIncrement (scope : Scope) (identifier : String) (attempts : ℕ) (w : World) :
    Yields (afterIncrement d scope identifier attempts) w
      fun o _ => o=counted d scope attempts := by
  have hlock : ∀ w', Yields (if (policy d.settings scope).maxAttempts≤attempts then
      (redisSet (lockKey d scope identifier) (.text "1")
        (policy d.settings scope).lockSeconds).bind fun _ =>
          (redisDelete [failKey d scope identifier]).bind fun _ => .pure attempts
      else .pure attempts : Action ℕ) w' fun o _ => o=counted d scope attempts := by
    intro w'
    by_cases hmax : (policy d.settings scope).maxAttempts≤attempts
    · rw [if_pos hmax,redisSet]
      by_cases hzero : (policy d.settings scope).lockSeconds=0
      · have hc : counted d scope attempts=.error .responseError := if_neg (by omega)
        rw [if_pos hzero,hc]
        rfl
      · have hc : counted d scope attempts=.ok attempts := if_pos (by omega)
        rw [if_neg hzero,hc]
        rfl
    · have hc : counted d scope attempts=.ok attempts := if_pos (by omega)
      rw [if_neg hmax,hc]
      rfl
  simp only [afterIncrement,Program.monad_bind,Program.monad_pure]
  split
  · exact hlock _
  · exact hlock _

/-- An effect other than an increment. -/
def NoIncrement (op : Effect) : Prop := ∀ key, op≠Effect.external (.redisIncr key)

/-- The count is not raised a second time. -/
theorem within_afterIncrement (scope : Scope) (identifier : String) (attempts : ℕ) :
    (afterIncrement d scope identifier attempts).Within NoIncrement := by
  have hset : (redisSet (lockKey d scope identifier) (.text "1")
      (policy d.settings scope).lockSeconds).Within NoIncrement := by
    simp [redisSet,external,NoIncrement]
  have hlock : (if (policy d.settings scope).maxAttempts≤attempts then
      (redisSet (lockKey d scope identifier) (.text "1")
        (policy d.settings scope).lockSeconds).bind fun _ =>
          (redisDelete [failKey d scope identifier]).bind fun _ => .pure attempts
      else .pure attempts : Action ℕ).Within NoIncrement := by
    rw [Program.within_ite]
    refine ⟨fun _ => Program.within_bind hset fun _ => ?_,fun _ => trivial⟩
    simp [redisDelete,external,NoIncrement]
  simp only [afterIncrement,Program.monad_bind,Program.monad_pure]
  rw [Program.within_ite]
  refine ⟨fun _ => Program.within_bind ?_ fun _ => hlock,fun _ => hlock⟩
  simp [redisExpire,external,NoIncrement]

/-- A failure is recorded exactly if it is countable; its count is the new
value of the counter and the only increment the record shows. -/
theorem run_recordFailure (scope : Scope) (identifier : String) (hw : SoundWorld w bound) :
    (Countable d scope identifier w → ((recordFailure d scope identifier).run World.perform w).1=
        .ok (countAt w (failKey d scope identifier))) ∧
      (¬Countable d scope identifier w →
        ((recordFailure d scope identifier).run World.perform w).1=.error .responseError) ∧
      ∀ key reply, (⟨.external (.redisIncr key),reply⟩ : (op : Effect)×op.Reply)∈
          (recordFailure d scope identifier).record World.perform w →
        key=failKey d scope identifier ∧ reply=some (countAt w (failKey d scope identifier)) := by
  have hreply : (World.perform (.external (.redisIncr (failKey d scope identifier))) w).1=
      some (countAt w (failKey d scope identifier)) := incremented_eq scope identifier hw
  have hrun : (recordFailure d scope identifier).run World.perform w=
      (afterIncrement d scope identifier (countAt w (failKey d scope identifier))).run
        World.perform
        (World.perform (.external (.redisIncr (failKey d scope identifier))) w).2 := by
    simp only [recordFailure_eq,redisIncr,external,Program.monad_bind,Program.call_bind,
      Program.pure_bind,Program.run]
    rw [hreply]
    rfl
  have hrecord : (recordFailure d scope identifier).record World.perform w=
      ⟨Effect.external (.redisIncr (failKey d scope identifier)),
        some (countAt w (failKey d scope identifier))⟩::
        (afterIncrement d scope identifier (countAt w (failKey d scope identifier))).record
          World.perform
          (World.perform (.external (.redisIncr (failKey d scope identifier))) w).2 := by
    simp only [recordFailure_eq,redisIncr,external,Program.monad_bind,Program.call_bind,
      Program.pure_bind,Program.record]
    rw [hreply]
    rfl
  have hafter : ((afterIncrement d scope identifier (countAt w (failKey d scope identifier))).run
      World.perform (World.perform (.external (.redisIncr (failKey d scope identifier))) w).2).1=
        counted d scope (countAt w (failKey d scope identifier)) :=
    yields_afterIncrement scope identifier _ _
  refine ⟨fun h => ?_,fun h => ?_,fun key reply hm => ?_⟩
  · rw [hrun]
    exact hafter.trans (if_pos h)
  · rw [hrun]
    exact hafter.trans (if_neg h)
  · rw [hrecord] at hm
    obtain he|hm := List.mem_cons.mp hm
    · cases he
      exact ⟨rfl,rfl⟩
    · exact absurd rfl
        (Program.record_within (within_afterIncrement scope identifier _) _ _ hm key)

/-- How counting a failure ends, with the world it leaves. -/
theorem recordFailure_cases (scope : Scope) (identifier : String) (hw : SoundWorld w bound) :
    ∃ o w', (recordFailure d scope identifier).run World.perform w=(o,w') ∧ w'.data=w.data ∧
      (∃ bound', SoundWorld w' bound') ∧
      (Countable d scope identifier w → o=.ok (countAt w (failKey d scope identifier))) ∧
      (¬Countable d scope identifier w → o=.error .responseError) := by
  obtain ⟨hok,herror,_⟩ := run_recordFailure (d := d) scope identifier hw
  have hdata : ((recordFailure d scope identifier).run World.perform w).2.data=w.data :=
    yields_data (inside_recordFailure d scope identifier) (by decide) w
  have hsound := soundWorld_run (tidy_recordFailure d scope identifier) hw
  generalize (recordFailure d scope identifier).run World.perform w=r at hok herror hdata hsound
  exact ⟨r.1,r.2,rfl,hdata,hsound,hok,herror⟩

/-- The blocked row of an account is in the working copy. -/
def BlockedIn (db : Database authSchema) (user : LoadedUser) : Prop :=
  ∃ row∈db .users, row.id=user.row.id ∧ row.loginBlocked=true

/-- Outside the counters no increment of a counter is recorded. -/
theorem notMem_record {α : Type} {p : Action α} {fp : List Access} (hp : Inside p fp)
    (hfp : .redisWrite .counter∉fp) (scope : Scope) (identifier : String) (reply : Option ℕ)
    (w : World) : (⟨Effect.external (.redisIncr (failKey d scope identifier)),reply⟩ :
      (op : Effect)×op.Reply)∉p.record World.perform w :=
  fun hm => hfp (Program.record_within hp w _ hm _ (List.mem_singleton_self _))

/-- The failure of an account is recorded and blocks the account when the
counter reaches the limit. -/
theorem run_recordAccountFailure (email : String) (user : Option LoadedUser)
    (hw : SoundWorld w bound) (hstored : ∀ account, user=some account →
      account.row∈w.data.work .users)
    (hcount : user.isSome=true → Countable d .loginAccount email w) :
    ∃ blocked w', (recordAccountFailure d email user).run World.perform w=(.ok blocked,w') ∧
      w'.data.work .auditEvents=w.data.work .auditEvents ∧
      ∀ account, user=some account →
        d.settings.bruteForceLoginMaxAttempts≤countAt w (failKey d .loginAccount email) →
          BlockedIn w'.data.work account := by
  cases user with
  | none => exact ⟨false,w,rfl,rfl,fun _ => nofun⟩
  | some account =>
    obtain ⟨o,w₁,hrun,hdata,_,hok,_⟩ := recordFailure_cases (d := d) .loginAccount email hw
    cases hok (hcount rfl)
    have hfilter : ((w₁.data.work .users).filter fun (u : User) => u.id==account.row.id).length=1 := by
      rw [hdata]
      refine filter_length_eq_one (hw.work.unique .users) (hstored account rfl) (by simp) ?_
      intro a b ha hb
      simp_all [conflict]
    simp only [recordAccountFailure,Program.monad_bind,Program.monad_pure,Program.run_bind,hrun]
    by_cases hmax : d.settings.bruteForceLoginMaxAttempts≤countAt w (failKey d .loginAccount email)
    · have hflush : (UserRepository.flushLoginBlocked account).run World.perform w₁=
          (.ok (),World.rewrite w₁ .users ((w₁.data.work .users).map fun (u : User) =>
            if u.id==account.row.id then {u with loginBlocked := true} else u)) :=
        run_flushUpdate hfilter
      rw [if_pos hmax,Program.run_bind,hflush]
      refine ⟨true,_,rfl,?_,fun other ho _ => ?_⟩
      · exact (Transaction.write_work_of_ne w₁.data _ (by decide)).trans (by rw [hdata])
      · cases ho
        refine ⟨{account.row with loginBlocked := true},?_,rfl,rfl⟩
        have hmem : {account.row with loginBlocked := true}∈(w₁.data.work .users).map
            fun (u : User) => if u.id==account.row.id then {u with loginBlocked := true} else u := by
          rw [hdata]
          exact List.mem_map.mpr ⟨account.row,hstored account rfl,by simp⟩
        exact (Transaction.write_work_self w₁.data .users _).symm ▸ hmem
    · rw [if_neg hmax]
      refine ⟨false,w₁,rfl,by rw [hdata],fun other _ hreached => absurd hreached hmax⟩

end Counting

section Accounting

variable (d : Deployment) (s : ServerState) (email password : String) (ip ua : Option String)
  (choices : List ℕ) (user : Option LoadedUser) (w : World)

/-- The guards let a sign-in pass, in the given world and with the given
account, and the password does not open the account. -/
structure CheckFails : Prop where
  /-- The guards pass. -/
  passed : (loginGuards d email ip).run World.perform (s.world choices)=(.ok user,w)
  /-- The password is wrong. -/
  wrong : passwordOk password user=false

/-- The sign-in as a client sends it. -/
def signIn : ClientRequest := ⟨.login email password,ip,ua⟩

/-- The audit row of a wrong password. -/
def failedLogin : AuditEvent :=
  ⟨"auth.login.failed","failure",user.map (·.row.id),user.map (·.row.id),ip,ua,
    AuditService.sanitizePayload d [("email",.str (d.lower email))]⟩

/-- The record of the call shows that the counter of the account reached the
limit. -/
def ReachedLimit : Prop :=
  ∃ attempts, d.settings.bruteForceLoginMaxAttempts≤attempts ∧
    (⟨Effect.external (.redisIncr (failKey d .loginAccount (d.lower email))),some attempts⟩ :
        (op : Effect)×op.Reply)∈
      (respond d (signIn email password ip ua)).record World.perform (s.world choices)

/-- The failed sign-in is accounted for when the call has ended. -/
structure Accounted : Prop where
  /-- The audit row is committed. -/
  audited : (s.next d (.call (signIn email password ip ua) choices)).db .auditEvents=
    s.db .auditEvents++[failedLogin d email ip ua user]
  /-- The block of an account whose counter reached the limit is committed. -/
  blocked : ∀ account, user=some account → ReachedLimit d s email password ip ua choices →
    BlockedIn (s.next d (.call (signIn email password ip ua) choices)).db account
  /-- The call raises one of two errors. -/
  raised : (s.serve d (signIn email password ip ua) choices).1=.error .invalidCredentials ∨
    ∃ message, (s.serve d (signIn email password ip ua) choices).1=
      .error (.accountLoginBlocked message)

/-- Client address and client program fit the columns of the audit row, and
both failures can be counted. -/
structure Accountable : Prop where
  /-- `ip_address` has 64 characters. -/
  ipAddress : fits 64 ip=true
  /-- `user_agent` has 512 characters. -/
  userAgent : fits 512 ua=true
  /-- The failure of address and client can be recorded. -/
  client : Countable d .login (loginIdentifier d email ip) w
  /-- So can the failure of the account, in the world after it. -/
  account : user.isSome=true → Countable d .loginAccount (d.lower email)
    ((recordFailure d .login (loginIdentifier d email ip)).run World.perform w).2

variable {d : Deployment} {s : ServerState} {email password : String} {ip ua : Option String}
  {choices : List ℕ} {user : Option LoadedUser} {w : World}

/-- The call ends as its part after a wrong password does. -/
theorem CheckFails.run (h : CheckFails d s email password ip choices user w) :
    (login d email password ip ua).run World.perform (s.world choices)=
      (rejectPassword d user (d.lower email) (loginIdentifier d email ip) ip ua).run
        World.perform w := by
  rw [login_eq,Program.run_bind,h.passed]
  exact congrArg (fun p => Program.run World.perform p w)
    (judge_of_not_ok d email password ip ua h.wrong)

/-- The part of a failed sign-in after its failures have been counted. -/
def report (d : Deployment) (email : String) (ip ua : Option String) (user : Option LoadedUser)
    (blocked : Bool) : Action LoginStepResult := do
  AuditService.logEvent d "auth.login.failed" "failure" (user.map (·.row.id))
    (user.map (·.row.id)) ip ua
    [("email",.str (d.lower email))]
  commit
  if blocked then throw (.accountLoginBlocked d.settings.accountLoginLockedMessage)
  else throw .invalidCredentials

/-- The only increment of the counter of the account is the one that the
failure of the account makes. -/
theorem CheckFails.reached (h : CheckFails d s email password ip choices user w)
    {bound : ℕ} (hw : SoundWorld w bound) {account : LoadedUser} (hu : user=some account)
    {n : ℕ} {w₁ : World}
    (hfirst : (recordFailure d .login (loginIdentifier d email ip)).run World.perform w=(.ok n,w₁))
    (hw₁ : ∃ bound', SoundWorld w₁ bound')
    (hreached : ReachedLimit d s email password ip ua choices) :
    d.settings.bruteForceLoginMaxAttempts≤countAt w₁ (failKey d .loginAccount (d.lower email)) := by
  obtain ⟨attempts,hmax,hmem⟩ := hreached
  obtain ⟨_,hw₁⟩ := hw₁
  subst hu
  have hlogin : _∈(login d email password ip ua).record World.perform (s.world choices) :=
    (Program.mem_record_bind.mp hmem).resolve_right fun ⟨_,_,_,he⟩ => List.not_mem_nil he
  rw [login_eq] at hlogin
  obtain ⟨user,w',hguards,hjudge⟩ := (Program.mem_record_bind.mp hlogin).resolve_left
    (notMem_record (inside_loginGuards d email ip) (by decide) _ _ _ _)
  obtain ⟨hu,rfl⟩ := Prod.mk.inj (h.passed.symm.trans hguards)
  cases hu
  rw [judge_of_not_ok d email password ip ua h.wrong] at hjudge
  obtain hclient|⟨m,w₂,hrun,hrest⟩ := Program.mem_record_bind.mp hjudge
  · have hkey := ((run_recordFailure (d := d) .login _ hw).2.2 _ _ hclient).1
    cases hkey
  · cases hfirst.symm.trans hrun
    obtain haccount|⟨blocked,w₃,_,hlog⟩ := Program.mem_record_bind.mp hrest
    · obtain hcount|⟨_,_,_,hflush⟩ := Program.mem_record_bind.mp haccount
      · have hn := ((run_recordFailure (d := d) .loginAccount _ hw₁).2.2 _ _ hcount).2
        cases hn
        exact hmax
      · have hinside : ∀ count, Inside (if d.settings.bruteForceLoginMaxAttempts≤count then
            (UserRepository.flushLoginBlocked account).bind fun _ => .pure true
            else .pure false) [.update .users] := by
          intro count
          split
          · exact inside_bind (inside_flushUpdate _ _ _) fun _ => trivial
          · trivial
        exact absurd hflush (notMem_record (hinside _) (by decide) _ _ _ _)
    · have hinside : Inside (report d email ip ua (some account) blocked)
          [.insert .auditEvents,.commit] := by
        refine inside_bind ((inside_logEvent _ _ _ _ _ _ _ _).widen rfl) fun _ => ?_
        refine inside_bind (inside_commit.widen rfl) fun _ => ?_
        cases blocked <;> trivial
      exact absurd hlog (notMem_record hinside (by decide) _ _ _ _)

/-- What the guards leave behind. -/
theorem CheckFails.world (h : CheckFails d s email password ip choices user w)
    (hs : Sound s.env s.db) : (∃ bound, SoundWorld w bound) ∧ w.data=⟨s.db,s.db⟩ ∧
      ∀ account, user=some account → account.row∈w.data.work .users := by
  have hsound := soundWorld_run (tidy_plain (inside_loginGuards d email ip) (by decide))
    (show SoundWorld (s.world choices) 0 from ⟨Nat.zero_le _,hs,hs⟩)
  have hguards := yields_loginGuards d email ip (s.world choices)
  unfold Yields Program.Ensures at hguards
  rw [h.passed] at hsound hguards
  refine ⟨hsound,hguards.1,?_⟩
  rintro account rfl
  have hrow := (hguards.2 account rfl).1
  rwa [←hguards.1] at hrow

/-- The call ends with the failure and in the world of its part after a wrong
password. -/
theorem CheckFails.serve (h : CheckFails d s email password ip choices user w) {e : Failure}
    {w' : World} (hrun : (rejectPassword d user (d.lower email) (loginIdentifier d email ip)
      ip ua).run World.perform w=(.error e,w')) :
    s.serve d (signIn email password ip ua) choices=(.error e,w') := by
  have hlogin := h.run.trans hrun
  show ((login d email password ip ua).bind _).run World.perform (s.world choices)=_
  rw [Program.run_bind,hlogin]

/-- The audit row of a wrong password fits exactly if client address and
client program do. -/
theorem valid_failedLogin : valid .auditEvents (failedLogin d email ip ua user)=true ↔
    fits 64 ip=true ∧ fits 512 ua=true := Bool.and_eq_true_iff

/-- A rejection counts the two scopes one after the other and reports. -/
theorem rejectPassword_eq : rejectPassword d user (d.lower email) (loginIdentifier d email ip) ip ua=
    (recordFailure d .login (loginIdentifier d email ip)).bind fun _ =>
      (recordAccountFailure d (d.lower email) user).bind (report d email ip ua user) := rfl

/-- A call that ends before its commit is not accounted for. -/
theorem CheckFails.lost (h : CheckFails d s email password ip choices user w)
    (hs : Sound s.env s.db) {e : Failure} {w' : World}
    (hrun : (rejectPassword d user (d.lower email) (loginIdentifier d email ip) ip ua).run
      World.perform w=(.error e,w')) (hcommitted : w'.data.committed=w.data.committed) :
    ¬Accounted d s email password ip ua choices user := by
  intro hacc
  have haudit := hacc.audited
  have hnext : (s.next d (.call (signIn email password ip ua) choices)).db=s.db := by
    show (s.serve d _ choices).2.data.committed=s.db
    rw [h.serve hrun,hcommitted,(h.world hs).2.1]
  rw [hnext] at haudit
  simpa using congrArg List.length haudit

/-- A call that is accounted for fits the audit row and has counted. -/
theorem CheckFails.accountable (h : CheckFails d s email password ip choices user w)
    (hs : Sound s.env s.db) (hacc : Accounted d s email password ip ua choices user) :
    Accountable d email ip ua user w := by
  obtain ⟨⟨bound,hw⟩,_,hstored⟩ := h.world hs
  obtain ⟨o,w₁,hfirst,hdata₁,⟨bound₁,hw₁⟩,hok,herror⟩ :=
    recordFailure_cases (d := d) .login (loginIdentifier d email ip) hw
  have hclient : Countable d .login (loginIdentifier d email ip) w := by
    by_contra hno
    cases herror hno
    have hrun : (rejectPassword d user (d.lower email) (loginIdentifier d email ip) ip ua).run
        World.perform w=(.error .responseError,w₁) := by
      rw [rejectPassword_eq,Program.run_bind,hfirst]
    exact h.lost hs hrun (by rw [hdata₁]) hacc
  cases hok hclient
  have haccount : user.isSome=true → Countable d .loginAccount (d.lower email) w₁ := by
    intro hsome
    obtain ⟨account,rfl⟩ := Option.isSome_iff_exists.mp hsome
    by_contra hno
    obtain ⟨o,w₂,hsecond,hdata₂,_,_,herror⟩ :=
      recordFailure_cases (d := d) .loginAccount (d.lower email) hw₁
    cases herror hno
    have hrun : (rejectPassword d (some account) (d.lower email) (loginIdentifier d email ip) ip
        ua).run World.perform w=(.error .responseError,w₂) := by
      simp only [rejectPassword_eq,recordAccountFailure,Program.monad_bind,Program.run_bind,hfirst,
        hsecond]
    exact h.lost hs hrun (by rw [hdata₂,hdata₁]) hacc
  obtain ⟨blocked,w₂,hsecond,_,_⟩ := run_recordAccountFailure (d.lower email) user hw₁
    (by rwa [hdata₁]) haccount
  have hcommitted₂ : w₂.data.committed=w.data.committed := by
    have hkeep := yields_committed (inside_recordAccountFailure d (d.lower email) user)
      (by decide) w₁
    unfold Yields Program.Ensures at hkeep
    rw [hsecond,hdata₁] at hkeep
    exact hkeep
  have hvalid : valid .auditEvents (failedLogin d email ip ua user)=true := by
    by_contra hno
    have hlog : (AuditService.logEvent d "auth.login.failed" "failure" (user.map (·.row.id))
      (user.map (·.row.id)) ip ua
        [("email",.str (d.lower email))]).run World.perform w₂=(.error .dataError,w₂) :=
      run_insertRow_invalid (Bool.eq_false_iff.mpr hno)
    have hrun : (rejectPassword d user (d.lower email) (loginIdentifier d email ip) ip ua).run
        World.perform w=(.error .dataError,w₂) := by
      simp only [rejectPassword_eq,report,Program.monad_bind,Program.run_bind,hfirst,hsecond,hlog]
    exact h.lost hs hrun hcommitted₂ hacc
  obtain ⟨hip,hua⟩ := valid_failedLogin.mp hvalid
  refine ⟨hip,hua,hclient,fun hsome => ?_⟩
  rw [hfirst]
  exact haccount hsome

/-- A failed sign-in is accounted for exactly if its client address and its
client program fit the audit row and its failures can be counted. -/
theorem failed_sign_in_accounted (hs : Reachable d s)
    (h : CheckFails d s email password ip choices user w) :
    Accounted d s email password ip ua choices user ↔ Accountable d email ip ua user w := by
  refine ⟨h.accountable hs.sound,fun hc => ?_⟩
  obtain ⟨⟨bound,hw⟩,hdata,hstored⟩ := h.world hs.sound
  obtain ⟨o,w₁,hfirst,hdata₁,⟨bound₁,hw₁⟩,hok,_⟩ :=
    recordFailure_cases (d := d) .login (loginIdentifier d email ip) hw
  cases hok hc.client
  have haccount := hc.account
  rw [hfirst] at haccount
  obtain ⟨blocked,w₂,hsecond,haudit₂,hblocked₂⟩ := run_recordAccountFailure (d.lower email) user hw₁
    (by rwa [hdata₁]) haccount
  have hlog : (AuditService.logEvent d "auth.login.failed" "failure" (user.map (·.row.id))
    (user.map (·.row.id)) ip ua
      [("email",.str (d.lower email))]).run World.perform w₂=(.ok (),World.rewrite w₂ .auditEvents
        (w₂.data.work .auditEvents++[failedLogin d email ip ua user])) :=
    run_insertRow (valid_failedLogin.mpr ⟨hc.ipAddress,hc.userAgent⟩)
      (List.any_eq_false.mpr fun _ _ => by simp [conflict])
  generalize hw₃ : World.rewrite w₂ .auditEvents
    (w₂.data.work .auditEvents++[failedLogin d email ip ua user])=w₃ at hlog
  have hrun : ∃ e w', (e=.invalidCredentials ∨ ∃ message, e=.accountLoginBlocked message) ∧
      w'.data.committed=w₃.data.work ∧ (rejectPassword d user (d.lower email)
        (loginIdentifier d email ip) ip ua).run World.perform w=(.error e,w') := by
    cases blocked
    · refine ⟨.invalidCredentials,⟨w₃.env,⟨w₃.data.work,w₃.data.work⟩,w₃.choices⟩,.inl rfl,rfl,?_⟩
      simp only [rejectPassword_eq,report,Program.monad_bind,Program.run_bind,hfirst,hsecond,hlog]
      rfl
    · refine ⟨.accountLoginBlocked d.settings.accountLoginLockedMessage,
        ⟨w₃.env,⟨w₃.data.work,w₃.data.work⟩,w₃.choices⟩,.inr ⟨_,rfl⟩,rfl,?_⟩
      simp only [rejectPassword_eq,report,Program.monad_bind,Program.run_bind,hfirst,hsecond,hlog]
      rfl
  obtain ⟨e,w',he,hcommitted,hrun⟩ := hrun
  have hserve := h.serve hrun
  have hnext : (s.next d (.call (signIn email password ip ua) choices)).db=w₃.data.work := by
    show (s.serve d _ choices).2.data.committed=_
    rw [hserve,hcommitted]
  refine ⟨?_,fun account hu hreached => ?_,?_⟩
  · rw [hnext,←hw₃]
    refine (Transaction.write_work_self w₂.data .auditEvents _).trans ?_
    rw [haudit₂,hdata₁,hdata]
  · have hlimit := h.reached hw hu hfirst ⟨bound₁,hw₁⟩ hreached
    rw [hnext]
    obtain ⟨row,hrow,hblocked⟩ := hblocked₂ account hu hlimit
    have husers : w₃.data.work .users=w₂.data.work .users :=
      hw₃ ▸ Transaction.write_work_of_ne w₂.data _ (by decide)
    exact ⟨row,husers ▸ hrow,hblocked⟩
  · rw [hserve]
    obtain rfl|⟨message,rfl⟩ := he
    · exact .inl rfl
    · exact .inr ⟨message,rfl⟩

end Accounting

section Sample

/-- A server on which the sample account has just registered. -/
def registeredServer : ServerState :=
  (freshServer (seconds 3000) 10).next sampleDeployment
    (.call (fromClient (.register "a@b" "password1")) [])

/-- The sample server is reachable. -/
theorem reachable_registeredServer : Reachable sampleDeployment registeredServer :=
  ⟨_,_,_,.step _ .refl trivial⟩

/-- That account. -/
def registeredUser : LoadedUser :=
  ⟨⟨⟨11⟩,"a@b",⟨10,"password1"⟩,true,false,false,false⟩,none,[]⟩

/-- The world after the guards of its next sign-in. -/
def guardedWorld : World :=
  ((loginGuards sampleDeployment "a@b" none).run World.perform (registeredServer.world [])).2

/-- The sample password fails its check. -/
theorem checkFails_sample : CheckFails sampleDeployment registeredServer "a@b" "wrong" none []
    (some registeredUser) guardedWorld := by
  have hpass : ((loginGuards sampleDeployment "a@b" none).run World.perform
      (registeredServer.world [])).1=.ok (some registeredUser) := by decide +kernel
  exact ⟨Prod.ext hpass rfl,by decide⟩

/-- The sample failure is counted and logged. -/
theorem failed_sign_in_accounted_sample :
    Accounted sampleDeployment registeredServer "a@b" "wrong" none none []
      (some registeredUser) :=
  (failed_sign_in_accounted reachable_registeredServer checkFails_sample).mpr
    ⟨rfl,rfl,.inl (by decide),fun _ => .inl (by decide)⟩

/-- A client program of 513 characters. -/
def longUserAgent : Option String := some (String.ofList (List.replicate 513 'x'))

/-- A text that is too long does not fit. -/
theorem fits_eq_false {limit : ℕ} {text : String} (h : limit<text.length) :
    fits limit (some text)=false := by
  simp [fits,h]

/-- The long user agent does not fit its column. -/
theorem fits_longUserAgent : fits 512 longUserAgent=false := by
  refine fits_eq_false ?_
  rw [String.length_ofList,List.length_replicate]
  decide

/-- With a user agent that does not fit, the failure is lost from the log. -/
theorem failed_sign_in_lost : ∃ s user w, Reachable sampleDeployment s ∧
    CheckFails sampleDeployment s "a@b" "wrong" none [] user w ∧
      ¬Accounted sampleDeployment s "a@b" "wrong" none longUserAgent [] user := by
  refine ⟨_,_,_,reachable_registeredServer,checkFails_sample,fun hacc => ?_⟩
  have hfits := (checkFails_sample.accountable reachable_registeredServer.sound hacc).userAgent
  rw [fits_longUserAgent] at hfits
  exact absurd hfits nofun

end Sample

end BackendPlatform.FailedSignIns
