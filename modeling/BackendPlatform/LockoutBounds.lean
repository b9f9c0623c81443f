import BackendPlatform.AccountRecovery
import BackendPlatform.SlidingWindows

/-!
# How often an identifier can fail

Attempts on one identifier, one after another, each checking the lock and
recording a failure. What Redis holds after them is the window of the last
failure, so the bound on counters with windows and locks applies to the
recorded failures.
-/

set_option autoImplicit false

namespace BackendPlatform.LockoutBounds

open ProgramTrees TransactionalTables ExpiringStore SlidingWindows
open AuthRecords AuthEffects AuthRepositories AuthServices AuthFlows
open ServerRuns FailedSignIns AccountRecovery BruteForceProtectionService

/-- An attempt that fails: the lock is checked, the failure is recorded. -/
def failedAttempt (d : Deployment) (scope : Scope) (identifier : String) : Action ℕ := do
  assertNotLocked d scope identifier
  recordFailure d scope identifier

/-- What one attempt leaves in a history. -/
structure Attempt where
  /-- When the lock was looked for. -/
  checkedAt : Instant
  /-- When the failure was counted, if the attempt was not refused. -/
  countedAt : Instant
  /-- The count, or the refusal. -/
  result : Except Failure ℕ

/-- The attempt was refused, with `AccountLockedException`. -/
def Attempt.Refused (attempt : Attempt) : Prop :=
  ∃ message,attempt.result=.error (.accountLocked message)

/-- The attempt was not refused, so it called `record_failure`. -/
def Attempt.recorded (attempt : Attempt) : Bool :=
  match attempt.result with
  | .error (.accountLocked _) => false
  | _ => true

/-- The attempt that starts in a world. -/
def attemptIn (d : Deployment) (scope : Scope) (identifier : String) (w : World) : Attempt :=
  ⟨w.env.clock+w.choices.headD 0,w.env.clock+w.choices.headD 0+w.choices.tail.headD 0,
    ((failedAttempt d scope identifier).run World.perform w).1⟩

/-- Attempts on one identifier, one after another, from a Redis that knows
nothing of it. Between them time passes and other keys change. -/
inductive Attempts (d : Deployment) (scope : Scope) (identifier : String) :
    List Attempt → Environment → Prop where
  /-- Nothing has happened yet. -/
  | start {env : Environment} (hfail : env.redis (failKey d scope identifier)=none)
      (hlock : env.redis (lockKey d scope identifier)=none) :
      Attempts d scope identifier [] env
  /-- Something else happens. -/
  | other {history : List Attempt} {env env' : Environment}
      (h : Attempts d scope identifier history env) (hclock : env.clock≤env'.clock)
      (hfail : env'.redis (failKey d scope identifier)=env.redis (failKey d scope identifier))
      (hlock : env'.redis (lockKey d scope identifier)=env.redis (lockKey d scope identifier)) :
      Attempts d scope identifier history env'
  /-- The next attempt. -/
  | attempt {history : List Attempt} (w : World)
      (h : Attempts d scope identifier history w.env) :
      Attempts d scope identifier (history++[attemptIn d scope identifier w])
        ((failedAttempt d scope identifier).run World.perform w).2.env

variable {d : Deployment} {scope : Scope} {identifier : String}

/-- What Redis holds of an identifier with a window. -/
structure Standing (d : Deployment) (scope : Scope) (identifier : String) (env : Environment)
    (window : Window) : Prop where
  /-- The last failure is past. -/
  past : window.last≤env.clock
  /-- Below the maximum the counter lives at least as long as its window. -/
  counting : window.count < (policy d.settings scope).maxAttempts →
    ∃ expiry,env.redis (failKey d scope identifier)=some ⟨.number window.count,some expiry⟩ ∧
      window.first+seconds (policy d.settings scope).windowSeconds≤expiry
  /-- At the maximum the counter is gone and the lock is set. -/
  locked : (policy d.settings scope).maxAttempts≤window.count →
    env.redis (failKey d scope identifier)=none ∧
      ∃ value expiry,env.redis (lockKey d scope identifier)=some ⟨value,some expiry⟩ ∧
        window.last+seconds (policy d.settings scope).lockSeconds≤expiry

/-- The lock that `record_failure` sets outlives every instant before it by its
length, and the counter is gone. -/
theorem run_lockout (hlock : 0 < (policy d.settings scope).lockSeconds) (attempts : ℕ)
    (w : World) : ∃ w' value expiry,
    ((redisSet (lockKey d scope identifier) (.text "1")
        (policy d.settings scope).lockSeconds).bind fun _ =>
      (redisDelete [failKey d scope identifier]).bind fun _ =>
        (.pure attempts : Action ℕ)).run World.perform w=(.ok attempts,w') ∧
      w.env.clock≤w'.env.clock ∧ w'.env.redis (failKey d scope identifier)=none ∧
      w'.env.redis (lockKey d scope identifier)=some ⟨value,some expiry⟩ ∧
      w.env.clock+seconds (policy d.settings scope).lockSeconds≤expiry := by
  have hne : (policy d.settings scope).lockSeconds≠0 := by omega
  have hkeys : lockKey d scope identifier≠failKey d scope identifier := nofun
  rw [redisSet,if_neg hne]
  let w₁ := (World.perform (.external (.redisSet (lockKey d scope identifier) (.text "1")
    (policy d.settings scope).lockSeconds)) w).2
  let w₂ := (World.perform (.external (.redisDelete [failKey d scope identifier])) w₁).2
  have hclock₁ : w.env.clock≤w₁.env.clock := Environment.clock_le_perform _ _ _
  have hclock₂ : w₁.env.clock≤w₂.env.clock := Environment.clock_le_perform _ _ _
  have hset : w₁.env.redis (lockKey d scope identifier)=some ⟨.text "1",some
      (w.env.clock+w.choices.headD 0+seconds (policy d.settings scope).lockSeconds)⟩ :=
    Store.assign_self _ _ _ _
  have hgone : w₂.env.redis (failKey d scope identifier)=none := Store.remove_self _ _
  have hkept : w₂.env.redis (lockKey d scope identifier)=
      w₁.env.redis (lockKey d scope identifier) := Store.remove_of_ne _ hkeys
  have hlong : w.env.clock+seconds (policy d.settings scope).lockSeconds≤
      w.env.clock+w.choices.headD 0+seconds (policy d.settings scope).lockSeconds :=
    Nat.add_le_add_right (Nat.le_add_right _ _) _
  exact ⟨w₂,_,_,rfl,Nat.le_trans hclock₁ hclock₂,hgone,hkept.trans hset,hlong⟩

/-- `record_failure` after an increment that left a counter with an expiry. -/
theorem run_settle (hlock : 0 < (policy d.settings scope).lockSeconds) {w : World}
    {window : Window} {expiry : ℕ} (hpast : window.last≤w.env.clock)
    (hcounter : w.env.redis (failKey d scope identifier)=some ⟨.number window.count,some expiry⟩)
    (hexpiry : window.first+seconds (policy d.settings scope).windowSeconds≤expiry) :
    ∃ w',(if (policy d.settings scope).maxAttempts≤window.count then
        (redisSet (lockKey d scope identifier) (.text "1")
          (policy d.settings scope).lockSeconds).bind fun _ =>
        (redisDelete [failKey d scope identifier]).bind fun _ => .pure window.count
      else (.pure window.count : Action ℕ)).run World.perform w=(.ok window.count,w') ∧
      Standing d scope identifier w'.env window := by
  by_cases hmax : (policy d.settings scope).maxAttempts≤window.count
  · obtain ⟨w',value,expiry',hrun,hclock,hgone,hset,hlong⟩ :=
      @run_lockout _ _ identifier hlock window.count w
    rw [if_pos hmax]
    refine ⟨w',hrun,Nat.le_trans hpast hclock,fun hbelow => absurd hmax (by omega),fun _ => ?_⟩
    exact ⟨hgone,value,expiry',hset,Nat.le_trans (Nat.add_le_add_right hpast _) hlong⟩
  · rw [if_neg hmax]
    exact ⟨w,rfl,hpast,fun _ => ⟨expiry,hcounter,hexpiry⟩,fun hfull => absurd hfull hmax⟩

/-- After the increment the run goes on with its reply. -/
theorem run_recordFailure_eq {w : World} {attempts : ℕ}
    (hreply : (World.perform (.external (.redisIncr (failKey d scope identifier))) w).1=
      some attempts) :
    (recordFailure d scope identifier).run World.perform w=
      (afterIncrement d scope identifier attempts).run World.perform
        (World.perform (.external (.redisIncr (failKey d scope identifier))) w).2 := by
  rw [recordFailure_eq,redisIncr]
  simp only [external,Program.monad_bind,Program.call_bind,Program.pure_bind,Program.run]
  rw [hreply]
  rfl

/-- The increment of a missing counter starts a window. -/
theorem run_recordFailure_first (hlock : 0 < (policy d.settings scope).lockSeconds) {w : World}
    (hmissing : w.env.redis.lookup (w.env.clock+w.choices.headD 0)
      (failKey d scope identifier)=none) :
    ∃ w',(recordFailure d scope identifier).run World.perform w=(.ok 1,w') ∧
      Standing d scope identifier w'.env
        ⟨w.env.clock+w.choices.headD 0,w.env.clock+w.choices.headD 0,1⟩ := by
  let w₁ := (World.perform (.external (.redisIncr (failKey d scope identifier))) w).2
  let w₂ := (World.perform (.external (.redisExpire (failKey d scope identifier)
    (policy d.settings scope).windowSeconds)) w₁).2
  have hreply : (World.perform (.external (.redisIncr (failKey d scope identifier))) w).1=
      some 1 := by
    show (w.env.tick (w.choices.headD 0)).incremented (failKey d scope identifier)=some 1
    simp only [Environment.incremented,Environment.tick,hmissing]
  have hstarted : w₁.env.redis (failKey d scope identifier)=some ⟨.number 1,none⟩ := by
    show (w.env.tick (w.choices.headD 0)).increment (failKey d scope identifier)
      (failKey d scope identifier)=_
    simp only [Environment.increment,Environment.tick,hmissing,Store.assign_self]
  have hclock₁ : w₁.env.clock=w.env.clock+w.choices.headD 0 := rfl
  have hclock₂ : w₁.env.clock≤w₂.env.clock := Environment.clock_le_perform _ _ _
  have hcounter : w₂.env.redis (failKey d scope identifier)=some ⟨.number 1,
      some (w₂.env.clock+seconds (policy d.settings scope).windowSeconds)⟩ := by
    show w₁.env.redis.retime w₂.env.clock (failKey d scope identifier)
      (w₂.env.clock+seconds (policy d.settings scope).windowSeconds) (failKey d scope identifier)=_
    simp [Store.retime,hstarted,Entry.live]
  obtain ⟨w',hrun,hstanding⟩ := @run_settle _ _ _ hlock w₂
    ⟨w₁.env.clock,w₁.env.clock,1⟩ _ hclock₂ hcounter
    (Nat.add_le_add_right hclock₂ _)
  refine ⟨w',?_,hstanding⟩
  rw [run_recordFailure_eq hreply]
  exact hrun

/-- The increment of a counter goes on with its window. -/
theorem run_recordFailure_next (hlock : 0 < (policy d.settings scope).lockSeconds) {w : World}
    {window : Window} {expiry : ℕ} (hcount : 1≤window.count)
    (hcounter : w.env.redis (failKey d scope identifier)=some ⟨.number window.count,some expiry⟩)
    (hlive : w.env.clock+w.choices.headD 0 < expiry)
    (hexpiry : window.first+seconds (policy d.settings scope).windowSeconds≤expiry) :
    ∃ w',(recordFailure d scope identifier).run World.perform w=(.ok (window.count+1),w') ∧
      Standing d scope identifier w'.env
        ⟨window.first,w.env.clock+w.choices.headD 0,window.count+1⟩ := by
  let w₁ := (World.perform (.external (.redisIncr (failKey d scope identifier))) w).2
  have hfound : w.env.redis.lookup (w.env.clock+w.choices.headD 0) (failKey d scope identifier)=
      some (.number window.count) :=
    Store.lookup_eq_some.mpr ⟨_,hcounter,decide_eq_true hlive,rfl⟩
  have hreply : (World.perform (.external (.redisIncr (failKey d scope identifier))) w).1=
      some (window.count+1) := by
    show (w.env.tick (w.choices.headD 0)).incremented (failKey d scope identifier)=_
    simp only [Environment.incremented,Environment.tick,hfound]
  have hgrown : w₁.env.redis (failKey d scope identifier)=
      some ⟨.number (window.count+1),some expiry⟩ := by
    show (w.env.tick (w.choices.headD 0)).increment (failKey d scope identifier)
      (failKey d scope identifier)=_
    simp only [Environment.increment,Environment.tick,hfound]
    simp [Store.replace,hcounter]
  obtain ⟨w',hrun,hstanding⟩ := @run_settle _ _ _ hlock w₁
    ⟨window.first,w.env.clock+w.choices.headD 0,window.count+1⟩ _ (Nat.le_refl _) hgrown hexpiry
  refine ⟨w',?_,hstanding⟩
  rw [run_recordFailure_eq hreply]
  have hlater : ¬window.count+1=1 := by omega
  unfold afterIncrement
  simp only [if_neg hlater]
  exact hrun

/-- An attempt that finds the lock is refused and changes nothing. -/
theorem run_failedAttempt_locked {w : World}
    (h : lockedAt w (lockKey d scope identifier)=true) : ∃ message w',
    (failedAttempt d scope identifier).run World.perform w=(.error (.accountLocked message),w') ∧
      w'.env.redis=w.env.redis ∧ w.env.clock+w.choices.headD 0≤w'.env.clock := by
  have hreply : (World.perform (.external (.redisExists (lockKey d scope identifier))) w).1=true :=
    h
  let w₁ := (World.perform (.external (.redisExists (lockKey d scope identifier))) w).2
  let w₂ := (World.perform (.external (.redisTtl (lockKey d scope identifier))) w₁).2
  have hclock : w₁.env.clock≤w₂.env.clock := Environment.clock_le_perform _ _ _
  simp only [failedAttempt,assertNotLocked,redisExists,external,Program.monad_bind,
    Program.call_bind,Program.pure_bind,Program.run]
  rw [hreply]
  exact ⟨_,w₂,rfl,rfl,hclock⟩

/-- An attempt that does not find the lock records its failure. -/
theorem run_failedAttempt {w : World} (h : lockedAt w (lockKey d scope identifier)=false) :
    (failedAttempt d scope identifier).run World.perform w=
      (recordFailure d scope identifier).run World.perform (World.elapsed w) := by
  unfold failedAttempt
  rw [Program.monad_bind,Program.run_bind,run_assertNotLocked h]

/-- The instants of the recorded failures. -/
def recordings (history : List Attempt) : List ℕ :=
  (history.filter (·.recorded)).map (·.countedAt)

/-- A failure that reached the maximum locks for this long. -/
def LocksUntil (d : Deployment) (scope : Scope) (attempt : Attempt) (instant : ℕ) : Prop :=
  ∃ n,attempt.result=.ok n ∧ (policy d.settings scope).maxAttempts≤n ∧
    instant=attempt.countedAt+seconds (policy d.settings scope).lockSeconds

/-- What a history and Redis have to do with each other. -/
structure Consistent (d : Deployment) (scope : Scope) (identifier : String)
    (history : List Attempt) (env : Environment) : Prop where
  /-- Redis knows nothing, or the window of the last failure. -/
  window : recordings history=[] ∧ env.redis (failKey d scope identifier)=none ∨
    ∃ window,Counts (policy d.settings scope).maxAttempts
        (seconds (policy d.settings scope).windowSeconds)
        (seconds (policy d.settings scope).lockSeconds) (recordings history) window ∧
      Standing d scope identifier env window
  /-- A lock that is not over is set. -/
  locks : ∀ attempt∈history,∀ instant,LocksUntil d scope attempt instant →
    env.clock < instant → ∃ value expiry,
      env.redis (lockKey d scope identifier)=some ⟨value,some expiry⟩ ∧ instant≤expiry
  /-- An attempt under a lock was refused. -/
  refused : history.Pairwise fun earlier later => ∀ instant,
    LocksUntil d scope earlier instant → later.checkedAt < instant → later.Refused

/-- A window that another Redis content keeps. -/
theorem Standing.later {env env' : Environment} {window : Window}
    (h : Standing d scope identifier env window) (hclock : env.clock≤env'.clock)
    (hfail : env'.redis (failKey d scope identifier)=env.redis (failKey d scope identifier))
    (hlock : env'.redis (lockKey d scope identifier)=env.redis (lockKey d scope identifier)) :
    Standing d scope identifier env' window := by
  refine ⟨Nat.le_trans h.past hclock,fun hbelow => ?_,fun hfull => ?_⟩
  · rw [hfail]
    exact h.counting hbelow
  · rw [hfail,hlock]
    exact h.locked hfull

/-- Time and other keys change nothing. -/
theorem Consistent.later {history : List Attempt} {env env' : Environment}
    (h : Consistent d scope identifier history env) (hclock : env.clock≤env'.clock)
    (hfail : env'.redis (failKey d scope identifier)=env.redis (failKey d scope identifier))
    (hlock : env'.redis (lockKey d scope identifier)=env.redis (lockKey d scope identifier)) :
    Consistent d scope identifier history env' := by
  refine ⟨?_,fun attempt hmem instant huntil hbefore => ?_,h.refused⟩
  · rcases h.window with ⟨hnone,hmissing⟩|⟨window,hcounts,hstanding⟩
    · exact .inl ⟨hnone,hfail.trans hmissing⟩
    · exact .inr ⟨window,hcounts,hstanding.later hclock hfail hlock⟩
  · rw [hlock]
    exact h.locks attempt hmem instant huntil (Nat.lt_of_le_of_lt hclock hbefore)

/-- A refused attempt. -/
theorem Consistent.refuse {history : List Attempt} {w : World}
    (h : Consistent d scope identifier history w.env)
    (hlocked : lockedAt w (lockKey d scope identifier)=true) :
    Consistent d scope identifier (history++[attemptIn d scope identifier w])
      ((failedAttempt d scope identifier).run World.perform w).2.env := by
  obtain ⟨message,w',hrun,hredis,hclock⟩ := run_failedAttempt_locked hlocked
  have hresult : (attemptIn d scope identifier w).result=.error (.accountLocked message) :=
    congrArg Prod.fst hrun
  have hnot : (attemptIn d scope identifier w).recorded=false := by
    simp only [Attempt.recorded,hresult]
  have hsame : recordings (history++[attemptIn d scope identifier w])=recordings history := by
    simp [recordings,List.filter_append,hnot]
  have hlater : Consistent d scope identifier history w'.env :=
    h.later (Nat.le_trans (Nat.le_add_right _ _) hclock) (congrFun hredis _) (congrFun hredis _)
  rw [hrun]
  refine ⟨?_,fun attempt hmem instant huntil hbefore => ?_,?_⟩
  · rw [hsame]
    exact hlater.window
  · rcases List.mem_append.mp hmem with hold|hnew
    · exact hlater.locks attempt hold instant huntil hbefore
    · obtain ⟨n,hn,_⟩ := huntil
      rw [List.mem_singleton.mp hnew,hresult] at hn
      cases hn
  · refine List.pairwise_append.mpr ⟨h.refused,List.pairwise_singleton _ _,?_⟩
    intro earlier _ later hmem _ _ _
    rw [List.mem_singleton.mp hmem]
    exact ⟨message,hresult⟩

/-- An attempt that is not refused goes on with the window or starts one. -/
theorem Consistent.count {history : List Attempt} {w : World}
    (h : Consistent d scope identifier history w.env)
    (hlock : 0 < (policy d.settings scope).lockSeconds)
    (hmax : 1≤(policy d.settings scope).maxAttempts)
    (hunlocked : lockedAt w (lockKey d scope identifier)=false) : ∃ window w',
    (failedAttempt d scope identifier).run World.perform w=(.ok window.count,w') ∧
      window.last=(attemptIn d scope identifier w).countedAt ∧
      Counts (policy d.settings scope).maxAttempts
        (seconds (policy d.settings scope).windowSeconds)
        (seconds (policy d.settings scope).lockSeconds)
        (recordings history++[(attemptIn d scope identifier w).countedAt]) window ∧
      Standing d scope identifier w'.env window := by
  rw [run_failedAttempt hunlocked]
  rcases h.window with ⟨hnone,hmissing⟩|⟨window,hcounts,hstanding⟩
  · obtain ⟨w',hrun,hstands⟩ := run_recordFailure_first (w := World.elapsed w) hlock
      (@Store.lookup_eq_none_of_eq_none _ _ _ (failKey d scope identifier) hmissing _)
    refine ⟨_,w',hrun,rfl,?_,hstands⟩
    rw [hnone]
    exact .start _
  · have hpast : window.last≤(attemptIn d scope identifier w).countedAt :=
      Nat.le_trans hstanding.past
        (Nat.le_trans (Nat.le_add_right _ _) (Nat.le_add_right _ _))
    have hbounds := hcounts.bounds hmax
    rcases Nat.lt_or_ge window.count (policy d.settings scope).maxAttempts with hbelow|hfull
    · obtain ⟨expiry,hcounter,hexpiry⟩ := hstanding.counting hbelow
      rcases Nat.lt_or_ge (attemptIn d scope identifier w).countedAt expiry with hlive|hover
      · obtain ⟨w',hrun,hstands⟩ := run_recordFailure_next (w := World.elapsed w) hlock
          hbounds.2.1 hcounter hlive hexpiry
        exact ⟨_,w',hrun,rfl,.goOn hcounts hpast hbelow,hstands⟩
      · have hmissing : (World.elapsed w).env.redis.lookup (attemptIn d scope identifier w).countedAt
            (failKey d scope identifier)=none := by
          refine Option.eq_none_iff_forall_ne_some.mpr fun value hfound => ?_
          obtain ⟨entry,hentry,halive,_⟩ := Store.lookup_eq_some.mp hfound
          obtain rfl := Option.some.inj (hcounter.symm.trans hentry)
          exact absurd (of_decide_eq_true halive) (by omega)
        obtain ⟨w',hrun,hstands⟩ := run_recordFailure_first (w := World.elapsed w) hlock hmissing
        refine ⟨_,w',hrun,rfl,.renew hcounts hpast (fun _ => ?_) fun hfull => ?_,hstands⟩
        · exact Nat.le_trans hexpiry hover
        · omega
    · obtain ⟨hmissing,value,expiry,hset,hlong⟩ := hstanding.locked hfull
      have hover : expiry≤w.env.clock+w.choices.headD 0 := by
        by_contra hlive
        have hfound : w.env.redis.lookup (w.env.clock+w.choices.headD 0)
            (lockKey d scope identifier)=some value :=
          Store.lookup_eq_some.mpr ⟨_,hset,decide_eq_true (by omega),rfl⟩
        rw [lockedAt,hfound] at hunlocked
        cases hunlocked
      obtain ⟨w',hrun,hstands⟩ := run_recordFailure_first (w := World.elapsed w) hlock
        (@Store.lookup_eq_none_of_eq_none _ _ _ (failKey d scope identifier) hmissing _)
      refine ⟨_,w',hrun,rfl,.renew hcounts hpast (fun hbelow => ?_) fun _ => ?_,hstands⟩
      · omega
      · exact Nat.le_trans hlong (Nat.le_trans hover (Nat.le_add_right _ _))

/-- A recorded attempt. -/
theorem Consistent.record {history : List Attempt} {w : World}
    (h : Consistent d scope identifier history w.env)
    (hlock : 0 < (policy d.settings scope).lockSeconds)
    (hmax : 1≤(policy d.settings scope).maxAttempts)
    (hunlocked : lockedAt w (lockKey d scope identifier)=false) :
    Consistent d scope identifier (history++[attemptIn d scope identifier w])
      ((failedAttempt d scope identifier).run World.perform w).2.env := by
  obtain ⟨window,w',hrun,hlast,hcounts,hstands⟩ := h.count hlock hmax hunlocked
  have hresult : (attemptIn d scope identifier w).result=.ok window.count :=
    congrArg Prod.fst hrun
  have hrecorded : (attemptIn d scope identifier w).recorded=true := by
    simp only [Attempt.recorded,hresult]
  have hmore : recordings (history++[attemptIn d scope identifier w])=
      recordings history++[(attemptIn d scope identifier w).countedAt] := by
    simp [recordings,List.filter_append,hrecorded]
  -- The lock was looked for and not found, so every earlier lock is over.
  have hover : ∀ attempt∈history,∀ instant,LocksUntil d scope attempt instant →
      instant≤(attemptIn d scope identifier w).checkedAt := by
    intro attempt hmem instant huntil
    by_contra hlive
    obtain ⟨value,expiry,hset,hlong⟩ := h.locks attempt hmem instant huntil
      (Nat.lt_of_le_of_lt (Nat.le_add_right _ _) (Nat.lt_of_not_le hlive))
    have hfound : w.env.redis.lookup (w.env.clock+w.choices.headD 0)
        (lockKey d scope identifier)=some value := by
      refine Store.lookup_eq_some.mpr ⟨_,hset,decide_eq_true ?_,rfl⟩
      exact Nat.lt_of_lt_of_le (Nat.lt_of_not_le hlive) hlong
    rw [lockedAt,hfound] at hunlocked
    cases hunlocked
  have hlater : (attemptIn d scope identifier w).checkedAt≤w'.env.clock :=
    Nat.le_trans (Nat.le_add_right _ _) (Nat.le_trans (Nat.le_of_eq hlast.symm) hstands.past)
  rw [hrun]
  refine ⟨.inr ⟨window,hmore ▸ hcounts,hstands⟩,fun attempt hmem instant huntil hbefore => ?_,?_⟩
  · rcases List.mem_append.mp hmem with hold|hnew
    · have hpast := hover attempt hold instant huntil
      exact absurd (Nat.le_trans hpast hlater) (Nat.not_le_of_lt hbefore)
    · obtain ⟨n,hn,hfull,rfl⟩ := huntil
      rw [List.mem_singleton.mp hnew] at hn ⊢
      obtain rfl := Except.ok.inj (hresult.symm.trans hn)
      obtain ⟨_,value,expiry,hset,hlong⟩ := hstands.locked hfull
      exact ⟨value,expiry,hset,hlast ▸ hlong⟩
  · refine List.pairwise_append.mpr ⟨h.refused,List.pairwise_singleton _ _,?_⟩
    intro earlier hmem later hnew instant huntil hbefore
    rw [List.mem_singleton.mp hnew] at hbefore
    exact absurd (hover earlier hmem instant huntil) (Nat.not_le_of_lt hbefore)

/-- Every history is consistent with what Redis holds after it. -/
theorem Attempts.consistent {history : List Attempt} {env : Environment}
    (h : Attempts d scope identifier history env)
    (hlock : 0 < (policy d.settings scope).lockSeconds)
    (hmax : 1≤(policy d.settings scope).maxAttempts) :
    Consistent d scope identifier history env := by
  induction h with
  | start hfail _ => exact ⟨.inl ⟨rfl,hfail⟩,fun _ hmem => (List.not_mem_nil hmem).elim,.nil⟩
  | other _ hclock hfail hkept ih => exact ih.later hclock hfail hkept
  | attempt w _ ih =>
    cases hlocked : lockedAt w (lockKey d scope identifier) with
    | false => exact ih.record hlock hmax hlocked
    | true => exact ih.refuse hlocked

/-- In every history of an identifier, each half-open interval that is as short
as the window and as the lock has at most `2*M-1` recorded failures, and after a
recorded failure that reached the maximum every attempt is refused for the
length of the lock. -/
theorem lockout_bounds (d : Deployment) (scope : Scope) (identifier : String)
    (hmax : 1≤(policy d.settings scope).maxAttempts)
    (hlock : 0 < (policy d.settings scope).lockSeconds) {history : List Attempt}
    {env : Environment} (h : Attempts d scope identifier history env) :
    (∀ a,inInterval a (min (seconds (policy d.settings scope).windowSeconds)
        (seconds (policy d.settings scope).lockSeconds)) (recordings history)≤
      2*(policy d.settings scope).maxAttempts-1) ∧
    history.Pairwise fun earlier later => ∀ n,earlier.result=.ok n →
      (policy d.settings scope).maxAttempts≤n →
      later.checkedAt < earlier.countedAt+seconds (policy d.settings scope).lockSeconds →
      later.Refused := by
  have hconsistent := h.consistent hlock hmax
  constructor
  · intro a
    rcases hconsistent.window with ⟨hnone,_⟩|⟨window,hcounts,_⟩
    · rw [hnone]
      exact Nat.zero_le _
    · exact (hcounts.few hmax (Nat.min_le_left _ _) (Nat.min_le_right _ _) a).bound
  · exact hconsistent.refused.imp fun hrefused n hn hfull hbefore =>
      hrefused _ ⟨n,hn,hfull,rfl⟩ hbefore

/-- Failed sign-ins of one identifier, the latest first, each with the delays of
its effects. -/
def attemptAll : List (List ℕ) → List Attempt×Environment
  | [] => ([],sampleEnvironment)
  | choices::earlier =>
    let (history,env) := attemptAll earlier
    let w := ServerState.world ⟨env,sampleDatabase [] [] []⟩ choices
    (history++[attemptIn sampleDeployment .login "a" w],
      ((failedAttempt sampleDeployment .login "a").run World.perform w).2.env)

theorem attempts_attemptAll : ∀ choices,
    Attempts sampleDeployment .login "a" (attemptAll choices).1 (attemptAll choices).2
  | [] => .start rfl rfl
  | choices::earlier =>
    .attempt (ServerState.world ⟨(attemptAll earlier).2,sampleDatabase [] [] []⟩ choices)
      (attempts_attemptAll earlier)

/-- Two failures lock the identifier, the next attempt is refused, and one
after the lock counts again. -/
theorem lockout_bounds_first : ∃ first second third fourth env,
    Attempts sampleDeployment .login "a" [first,second,third,fourth] env ∧
    first.result=.ok 1 ∧ second.result=.ok 2 ∧ third.Refused ∧ fourth.result=.ok 1 ∧
    ∀ a,inInterval a (min (seconds 900) (seconds 900)) (recordings [first,second,third,fourth])≤
      3 := by
  have hrun := attempts_attemptAll [[seconds 900],[seconds 1],[],[]]
  obtain ⟨hfew,hrefused⟩ := lockout_bounds sampleDeployment .login "a" (by decide) (by decide) hrun
  have hlocked := (List.pairwise_cons.mp (List.pairwise_cons.mp hrefused).2).1
  exact ⟨_,_,_,_,_,hrun,rfl,rfl,hlocked _ (List.mem_cons_self ..) 2 rfl (by decide) (by decide),
    rfl,hfew⟩

end BackendPlatform.LockoutBounds
