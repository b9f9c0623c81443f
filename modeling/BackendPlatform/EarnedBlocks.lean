import BackendPlatform.FailedSignIns
import BackendPlatform.InterruptedRuns

/-!
# When an account is blocked

Sign-ins on one account, one after another, each of which may be cut at any
effect because a command to Redis fails. The counter of the account counts
wrong passwords in one window, as long as every command that starts it is
followed at once by the one that sets its expiry.
-/

set_option autoImplicit false

namespace BackendPlatform.EarnedBlocks

open ProgramTrees ProgramTrees.Program TransactionalTables ExpiringStore
open AuthRecords AuthEffects AuthRepositories AuthServices AuthFlows AuthFootprints
open FailedSignIns ServerRuns BruteForceProtectionService AuthService

section Watching

/-- What a sign-in has done so far to the counter and to the account. -/
structure Seen where
  /-- The count, and when it was taken. -/
  counted : Option (ℕ×Instant)
  /-- When the expiry of the counter was set. -/
  expired : Option Instant
  /-- Whether the row of a user was updated: a sign-in updates `login_blocked`
  only. -/
  blocked : Bool
deriving DecidableEq

/-- Nothing yet. -/
def Seen.nothing : Seen := ⟨none,none,false⟩

variable (k : RedisKey)

/-- An effect is seen. -/
def Seen.see (seen : Seen) (now : Instant) : (op : Effect) → op.Reply → Seen
  | .external (.redisIncr key),reply =>
    if key=k then {seen with counted := (reply : Option ℕ).map fun n => (n,now)} else seen
  | .external (.redisExpire key _),_ => if key=k then {seen with expired := some now} else seen
  | .sql (.update .users _ _),_ => {seen with blocked := true}
  | _,_ => seen

/-- The world of a sign-in and what was seen of it. -/
abbrev Watched := World×Seen

/-- An effect takes place and is seen. -/
def watch (op : Effect) (s : Watched) : op.Reply×Watched :=
  ((World.perform op s.1).1,((World.perform op s.1).2,
    s.2.see k (World.perform op s.1).2.env.clock op (World.perform op s.1).1))

/-- Watching changes no run. -/
theorem run_watch {α : Type} (p : Action α) (s : Watched) :
    (p.run (watch k) s).1=(p.run World.perform s.1).1 ∧
      (p.run (watch k) s).2.1=(p.run World.perform s.1).2 := by
  induction p generalizing s with
  | pure a => exact ⟨rfl,rfl⟩
  | raise e => exact ⟨rfl,rfl⟩
  | call op next ih => exact ih _ _

/-- The counter is kept while time may pass. -/
structure Kept (s s' : Watched) : Prop where
  /-- The counter. -/
  counter : s'.1.env.redis k=s.1.env.redis k
  /-- Time. -/
  clock : s.1.env.clock≤ s'.1.env.clock
  /-- What was counted. -/
  counted : s'.2.counted=s.2.counted
  /-- What was set. -/
  expired : s'.2.expired=s.2.expired

variable {k}

/-- Every state keeps its own record. -/
theorem Kept.refl (s : Watched) : Kept k s s := ⟨rfl,le_rfl,rfl,rfl⟩

/-- Keeping the record composes. -/
theorem Kept.trans {a b c : Watched} (hab : Kept k a b) (hbc : Kept k b c) : Kept k a c :=
  ⟨hbc.counter.trans hab.counter,hab.clock.trans hbc.clock,hbc.counted.trans hab.counted,
    hbc.expired.trans hab.expired⟩

variable (k)

/-- The effect leaves the counter alone. -/
def Apart : Effect → Prop
  | .external (.redisSet key _ _) => key≠k
  | .external (.redisDelete keys) => k∉keys
  | .external (.redisIncr key) => key≠k
  | .external (.redisExpire key _) => key≠k
  | _ => True

/-- The effect leaves the rows of users alone. -/
def KeepsUsers : Effect → Prop
  | .sql (.update t _ _) => t≠.users
  | _ => True

variable {k}

/-- An effect apart from the counter keeps it. -/
theorem kept_watch {op : Effect} (h : Apart k op) (s : Watched) : Kept k s (watch k op s).2 := by
  have hclock : s.1.env.clock≤ (World.perform op s.1).2.env.clock := by
    cases op with
    | external op => exact Environment.clock_le_perform _ _ _
    | sql stmt => exact le_rfl
  cases op with
  | sql stmt =>
    refine ⟨rfl,hclock,?_,?_⟩
    · cases stmt with
      | update t q f => cases t <;> rfl
      | _ => rfl
    · cases stmt with
      | update t q f => cases t <;> rfl
      | _ => rfl
  | external op =>
    cases op with
    | redisSet key value expiry =>
      exact ⟨Store.assign_of_ne _ _ _ (Ne.symm h),hclock,rfl,rfl⟩
    | redisDelete keys => exact ⟨Store.removeAll_of_notMem _ h,hclock,rfl,rfl⟩
    | redisIncr key =>
      have hkey : ¬key=k := h
      refine ⟨Environment.increment_of_ne _ (Ne.symm h),hclock,?_,?_⟩
      · simp [watch,Seen.see,hkey]
      · simp [watch,Seen.see,hkey]
    | redisExpire key expiry =>
      have hkey : ¬key=k := h
      refine ⟨Store.retime_of_ne _ _ _ (Ne.symm h),hclock,?_,?_⟩
      · simp [watch,Seen.see,hkey]
      · simp [watch,Seen.see,hkey]
    | _ => exact ⟨rfl,hclock,rfl,rfl⟩

/-- An effect that keeps users is not seen as a block. -/
theorem blocked_watch {op : Effect} (h : KeepsUsers op) (s : Watched) :
    (watch k op s).2.2.blocked=s.2.blocked := by
  cases op with
  | sql stmt =>
    cases stmt with
    | update t q f =>
      have ht : t≠.users := h
      cases t <;> first | rfl | exact absurd rfl ht
    | _ => rfl
  | external op =>
    cases op with
    | redisIncr key =>
      simp only [watch,Seen.see]
      split <;> rfl
    | redisExpire key expiry =>
      simp only [watch,Seen.see]
      split <;> rfl
    | _ => rfl

variable {α : Type} {p : Action α} {s s' : Watched} {o : Option (Except Failure α)}

/-- A part that is apart from the counter keeps it, wherever it is cut. -/
theorem kept_reaches (hp : p.Within (Apart k)) (h : Reaches (watch k) p s o s') : Kept k s s' :=
  reaches_within (fun s => Kept.refl s) (fun _ _ _ => Kept.trans) (fun _ s hop => kept_watch hop s)
    hp h

/-- A part that updates no account leaves the mark of the block. -/
theorem blocked_reaches (hp : p.Within KeepsUsers) (h : Reaches (watch k) p s o s') :
    s'.2.blocked=s.2.blocked :=
  reaches_within (R := fun s s' : Watched => s'.2.blocked=s.2.blocked) (fun _ => rfl)
    (fun _ _ _ hab hbc => hbc.trans hab) (fun _ s hop => blocked_watch hop s) hp h

/-- A footprint without counters is apart from every counter. -/
theorem apart_of_inside {fp : List Access} (hp : Inside p fp) (hfp : .redisWrite .counter∉fp)
    (scope : Scope) (digest : Hmac String) : p.Within (Apart (.bruteForceFail scope digest)) := by
  refine within_mono (fun op hop => ?_) hp
  cases op with
  | sql stmt => trivial
  | external op =>
    cases op with
    | redisSet key value expiry =>
      rintro rfl
      exact hfp (hop _ (List.mem_singleton_self _))
    | redisDelete keys =>
      intro hmem
      exact hfp (hop _ (List.mem_map_of_mem (f := fun key => Access.redisWrite (area key)) hmem))
    | redisIncr key =>
      rintro rfl
      exact hfp (hop _ (List.mem_singleton_self _))
    | redisExpire key expiry =>
      rintro rfl
      exact hfp (hop _ (List.mem_singleton_self _))
    | _ => trivial

/-- A footprint without updates of users keeps them. -/
theorem keepsUsers_of_inside {fp : List Access} (hp : Inside p fp) (hfp : .update .users∉fp) :
    p.Within KeepsUsers := by
  refine within_mono (fun op hop => ?_) hp
  cases op with
  | external op => trivial
  | sql stmt =>
    cases stmt with
    | update t q f =>
      rintro rfl
      exact hfp (hop _ (List.mem_singleton_self _))
    | _ => trivial

end Watching

section Counting

variable {d : Deployment} {account : String}

/-- What an increment that answers leaves: a counter at one, or the next number
of a counter that lives. -/
theorem increment_cases {env : Environment} {key : RedisKey} {n : ℕ}
    (h : env.incremented key=some n) :
    (n=1 ∧ ∃ e,env.increment key key=some ⟨.number 1,e⟩) ∨
      ∃ m entry,n=m+1 ∧ env.redis key=some entry ∧ entry.live env.clock=true ∧
        entry.value=.number m ∧ env.increment key key=some ⟨.number n,entry.expiresAt⟩ := by
  unfold Environment.incremented at h
  unfold Environment.increment
  cases hfound : env.redis.lookup env.clock key with
  | none =>
    rw [hfound] at h
    exact .inl ⟨(Option.some.inj h).symm,none,Store.assign_self _ _ _ _⟩
  | some value =>
    rw [hfound] at h
    obtain ⟨entry,hentry,hlive,rfl⟩ := Store.lookup_eq_some.mp hfound
    cases hvalue : entry.value with
    | number m =>
      rw [hvalue] at h
      have hn : m+1=n := Option.some.inj h
      refine .inr ⟨m,entry,hn.symm,hentry,hlive,hvalue,?_⟩
      simp [Store.replace,hentry,hn]
    | _ =>
      rw [hvalue] at h
      cases h

/-- After the count is taken the counter can only be removed. -/
structure Lowered (k : RedisKey) (s s' : Watched) : Prop where
  /-- The counter. -/
  counter : s'.1.env.redis k=s.1.env.redis k ∨ s'.1.env.redis k=none
  /-- Time. -/
  clock : s.1.env.clock≤ s'.1.env.clock
  /-- Nothing else is seen. -/
  seen : s'.2=s.2

/-- Every counter is at most itself. -/
theorem Lowered.refl (k : RedisKey) (s : Watched) : Lowered k s s := ⟨.inl rfl,le_rfl,rfl⟩

/-- Lowering composes. -/
theorem Lowered.trans {k : RedisKey} {a b c : Watched} (hab : Lowered k a b)
    (hbc : Lowered k b c) : Lowered k a c := by
  refine ⟨?_,hab.clock.trans hbc.clock,hbc.seen.trans hab.seen⟩
  rcases hbc.counter with hsame|hgone
  · rw [hsame]
    exact hab.counter
  · exact .inr hgone

/-- The commands of a lockout. -/
def OfLockout (k : RedisKey) (op : Effect) : Prop :=
  (∃ key value expiry,key≠k ∧ op=.external (.redisSet key value expiry)) ∨
    op=.external (.redisDelete [k])

/-- The effects of a lockout never raise the counter. -/
theorem lowered_watch {k : RedisKey} {op : Effect} (h : OfLockout k op) (s : Watched) :
    Lowered k s (watch k op s).2 := by
  rcases h with ⟨key,value,expiry,hne,rfl⟩|rfl
  · exact ⟨.inl (Store.assign_of_ne _ _ _ (Ne.symm hne)),Environment.clock_le_perform _ _ _,rfl⟩
  · exact ⟨.inr (Store.remove_self _ _),Environment.clock_le_perform _ _ _,rfl⟩

/-- The end of `record_failure`. -/
def lockout (d : Deployment) (account : String) (attempts : ℕ) : Action ℕ :=
  if (policy d.settings .loginAccount).maxAttempts≤attempts then
    (redisSet (lockKey d .loginAccount account) (.text "1")
      (policy d.settings .loginAccount).lockSeconds).bind fun _ =>
    (redisDelete [failKey d .loginAccount account]).bind fun _ => .pure attempts
  else .pure attempts

/-- The lockout uses its own keys only. -/
theorem within_lockout (attempts : ℕ) :
    (lockout d account attempts).Within (OfLockout (failKey d .loginAccount account)) := by
  have hset : (redisSet (lockKey d .loginAccount account) (.text "1")
      (policy d.settings .loginAccount).lockSeconds).Within
        (OfLockout (failKey d .loginAccount account)) := by
    unfold redisSet
    split
    · trivial
    · exact ⟨.inl ⟨lockKey d .loginAccount account,_,_,nofun,rfl⟩,fun _ => trivial⟩
  unfold lockout
  rw [within_ite]
  refine ⟨fun _ => within_bind hset fun _ => ?_,fun _ => trivial⟩
  exact ⟨.inr rfl,fun _ => trivial⟩

/-- The end of `record_failure` returns the count. -/
theorem lockout_returns {attempts m : ℕ} {s s' : Watched} {k : RedisKey}
    (h : Reaches (watch k) (lockout d account attempts) s (some (.ok m)) s') : m=attempts := by
  unfold lockout at h
  split at h
  · rcases reaches_bind h with ⟨_,_,hno⟩|⟨_,s₁,_,hrest⟩
    · exact absurd rfl (hno m)
    · rcases reaches_bind hrest with ⟨_,_,hno⟩|⟨_,s₂,_,hlast⟩
      · exact absurd rfl (hno m)
      · rcases (reaches_pure hlast).2 with hcut|hok
        · cases hcut
        · cases hok
          rfl
  · rcases (reaches_pure h).2 with hcut|hok
    · cases hcut
    · cases hok
      rfl

/-- How recording a failure of the account can end. -/
inductive Recorded (d : Deployment) (account : String) (s : Watched) :
    Option (Except Failure ℕ) → Watched → Prop where
  /-- Nothing is counted. -/
  | nothing {o : Option (Except Failure ℕ)} {s' : Watched}
      (hkept : Kept (failKey d .loginAccount account) s s') (hseen : s'.2=s.2)
      (hno : ∀ m,o≠some (.ok m)) : Recorded d account s o s'
  /-- A new counter has no expiry. -/
  | started {o : Option (Except Failure ℕ)} {s' : Watched} {t : Instant}
      (hcounted : s'.2.counted=some (1,t)) (hexpired : s'.2.expired=s.2.expired)
      (hblocked : s'.2.blocked=s.2.blocked) (hno : ∀ m,o≠some (.ok m)) :
      Recorded d account s o s'
  /-- A new counter gets its expiry. -/
  | first {o : Option (Except Failure ℕ)} {s' : Watched} {t u : Instant}
      (hcounted : s'.2.counted=some (1,t)) (hexpired : s'.2.expired=some u) (htu : t≤u)
      (hclock : u≤ s'.1.env.clock)
      (hcounter : s'.1.env.redis (failKey d .loginAccount account)=none ∨
        s'.1.env.redis (failKey d .loginAccount account)=some ⟨.number 1,
          some (u+seconds (policy d.settings .loginAccount).windowSeconds)⟩)
      (hblocked : s'.2.blocked=s.2.blocked) (hm : ∀ m,o=some (.ok m) → m=1) :
      Recorded d account s o s'
  /-- A counter that lives goes on. -/
  | next {o : Option (Except Failure ℕ)} {s' : Watched} {t : Instant} {n : ℕ}
      {entry : Entry RedisValue}
      (hentry : s.1.env.redis (failKey d .loginAccount account)=some entry)
      (hlive : entry.live t=true) (hvalue : entry.value=.number n)
      (hcounted : s'.2.counted=some (n+1,t)) (hexpired : s'.2.expired=s.2.expired)
      (hbefore : s.1.env.clock≤t) (hclock : t≤ s'.1.env.clock)
      (hcounter : s'.1.env.redis (failKey d .loginAccount account)=none ∨
        s'.1.env.redis (failKey d .loginAccount account)=some ⟨.number (n+1),entry.expiresAt⟩)
      (hblocked : s'.2.blocked=s.2.blocked) (hm : ∀ m,o=some (.ok m) → m=n+1) :
      Recorded d account s o s'

/-- The world of the next effect of a sign-in. -/
def Watched.next (s : Watched) : Environment := s.1.env.tick (s.1.choices.headD 0)

/-- The state after the counter is incremented. -/
def afterIncr (k : RedisKey) (s : Watched) : Watched := (watch k (.external (.redisIncr k)) s).2

/-- The step after an INCR dates what it counted. -/
theorem afterIncr_counted (k : RedisKey) (s : Watched) :
    (afterIncr k s).2.counted=(s.next.incremented k).map fun n => (n,s.next.clock) := by
  simp [afterIncr,watch,Seen.see,World.perform,Environment.perform,Watched.next,
    Environment.withRedis]

/-- The step after an INCR sees neither an expiry nor a block. -/
theorem afterIncr_seen (k : RedisKey) (s : Watched) :
    (afterIncr k s).2.expired=s.2.expired ∧ (afterIncr k s).2.blocked=s.2.blocked := by
  simp [afterIncr,watch,Seen.see]

/-- An increment is cut, fails or answers. -/
theorem reaches_redisIncr {k : RedisKey} {s s' : Watched} {o : Option (Except Failure ℕ)}
    (h : Reaches (watch k) (redisIncr k) s o s') :
    (o=none ∧ s'=s) ∨ s'=afterIncr k s ∧ ((s.next.incremented k=none ∧ ∀ n,o≠some (.ok n)) ∨
      ∃ n,s.next.incremented k=some n ∧ ∀ m,o=some (.ok m) → m=n) := by
  rcases reaches_call h with hcut|hreply
  · exact .inl hcut
  · refine .inr ?_
    have hsame : (watch k (.external (.redisIncr k)) s).1=s.next.incremented k := rfl
    rw [hsame] at hreply
    cases hfound : s.next.incremented k with
    | none =>
      rw [hfound] at hreply
      obtain ⟨hs,ho⟩ := reaches_raise hreply
      refine ⟨hs,.inl ⟨rfl,fun n hn => ?_⟩⟩
      rcases ho with ho|ho
      · rw [ho] at hn
        cases hn
      · rw [ho] at hn
        cases hn
    | some n =>
      rw [hfound] at hreply
      obtain ⟨hs,ho⟩ := reaches_pure hreply
      refine ⟨hs,.inr ⟨n,rfl,fun m hm => ?_⟩⟩
      rcases ho with ho|ho
      · rw [ho] at hm
        cases hm
      · rw [ho] at hm
        cases hm
        rfl

/-- A removed counter is absent, any other stays. -/
theorem Lowered.counter_eq {k : RedisKey} {s s' : Watched} (h : Lowered k s s')
    {entry : Entry RedisValue} (hs : s.1.env.redis k=none ∨ s.1.env.redis k=some entry) :
    s'.1.env.redis k=none ∨ s'.1.env.redis k=some entry := by
  rcases h.counter with hsame|hgone
  · rw [hsame]
    exact hs
  · exact .inl hgone

/-- Once a count is taken the rest only sets the expiry and locks. -/
theorem recorded_after {s s' : Watched} {o : Option (Except Failure ℕ)} {n : ℕ}
    (hn : s.next.incremented (failKey d .loginAccount account)=some n)
    (h : Reaches (watch (failKey d .loginAccount account)) (afterIncrement d .loginAccount account n)
      (afterIncr (failKey d .loginAccount account) s) o s') : Recorded d account s o s' := by
  have hcounted := afterIncr_counted (failKey d .loginAccount account) s
  rw [hn,Option.map_some] at hcounted
  obtain ⟨hexpired,hblocked⟩ := afterIncr_seen (failKey d .loginAccount account) s
  have hnext : s.1.env.clock≤ s.next.clock := Nat.le_add_right _ _
  have hlowered : ∀ {s₁ s₂ : Watched} {o : Option (Except Failure ℕ)},
      Reaches (watch (failKey d .loginAccount account)) (lockout d account n) s₁ o s₂ →
        Lowered (failKey d .loginAccount account) s₁ s₂ := fun hreach =>
    reaches_within (Lowered.refl _) (fun _ _ _ => Lowered.trans)
      (fun _ s hop => lowered_watch hop s) (within_lockout n) hreach
  by_cases hone : n=1
  · subst hone
    have hsplit : afterIncrement d .loginAccount account 1=
        (redisExpire (failKey d .loginAccount account)
          (policy d.settings .loginAccount).windowSeconds).bind fun _ => lockout d account 1 := rfl
    rw [hsplit] at h
    rcases reaches_call h with ⟨rfl,rfl⟩|hrest
    · exact .started hcounted hexpired hblocked fun _ => nofun
    · have hlow := hlowered hrest
      let u := (afterIncr (failKey d .loginAccount account) s).1.env.clock+
        (afterIncr (failKey d .loginAccount account) s).1.choices.headD 0
      have htu : s.next.clock≤u := Nat.le_add_right _ _
      refine .first (t := s.next.clock) (u := u) ?_ ?_ htu hlow.clock (hlow.counter_eq ?_) ?_
        fun m hm => ?_
      · rw [hlow.seen]
        simpa [watch,Seen.see] using hcounted
      · rw [hlow.seen]
        simp only [watch,Seen.see,if_true]
        rfl
      · have hstarted : ∃ e,s.next.increment (failKey d .loginAccount account)
            (failKey d .loginAccount account)=some ⟨.number 1,e⟩ := by
          rcases increment_cases hn with ⟨_,he⟩|⟨m,entry,_,_,_,_,hgrown⟩
          · exact he
          · exact ⟨_,hgrown⟩
        obtain ⟨e,he⟩ := hstarted
        have hafter : (afterIncr (failKey d .loginAccount account) s).1.env.redis
            (failKey d .loginAccount account)=some ⟨.number 1,e⟩ := he
        show (Store.retime _ _ _ _ _)=none ∨ (Store.retime _ _ _ _ _)=_
        rw [Store.retime,Function.update_self,hafter,Option.filter_some]
        cases Entry.live (⟨.number 1,e⟩ : Entry RedisValue) u with
        | true => exact .inr rfl
        | false => exact .inl rfl
      · rw [hlow.seen]
        simpa [watch,Seen.see] using hblocked
      · subst hm
        exact lockout_returns hrest
  · have hsplit : afterIncrement d .loginAccount account n=lockout d account n := by
      simp only [afterIncrement,monad_bind,monad_pure]
      rw [if_neg hone]
      rfl
    rw [hsplit] at h
    have hlow := hlowered h
    rcases increment_cases hn with ⟨hno,_⟩|⟨m,entry,rfl,hentry,hlive,hvalue,hgrown⟩
    · exact absurd hno hone
    · refine .next hentry hlive hvalue ?_ ?_ hnext hlow.clock
        (hlow.counter_eq (.inr hgrown)) ?_ fun m hm => ?_
      · rw [hlow.seen]
        exact hcounted
      · rw [hlow.seen]
        exact hexpired
      · rw [hlow.seen]
        exact hblocked
      · subst hm
        exact lockout_returns h

/-- How recording a failure of the account ends. -/
theorem recorded_reaches {s s' : Watched} {o : Option (Except Failure ℕ)}
    (hs : s.2.counted=none)
    (h : Reaches (watch (failKey d .loginAccount account)) (recordFailure d .loginAccount account)
      s o s') : Recorded d account s o s' := by
  rw [recordFailure_eq] at h
  have hnext : s.1.env.clock≤ s.next.clock := Nat.le_add_right _ _
  have hrefl : Kept (failKey d .loginAccount account) s s := Kept.refl s
  rcases reaches_bind h with ⟨o',hincr,hno⟩|⟨n,s₁,hincr,hrest⟩
  · rcases reaches_redisIncr hincr with ⟨_,rfl⟩|⟨rfl,⟨hnone,_⟩|⟨n,hn,_⟩⟩
    · exact .nothing hrefl rfl hno
    · have hcounted := afterIncr_counted (failKey d .loginAccount account) s
      rw [hnone,Option.map_none] at hcounted
      obtain ⟨hexpired,hblocked⟩ := afterIncr_seen (failKey d .loginAccount account) s
      have hseen : (afterIncr (failKey d .loginAccount account) s).2=s.2 := by
        rcases hfirst : (afterIncr (failKey d .loginAccount account) s).2 with ⟨c,e,b⟩
        rcases hsecond : s.2 with ⟨c',e',b'⟩
        simp_all
      have hcounter : s.next.increment (failKey d .loginAccount account)
          (failKey d .loginAccount account)=s.1.env.redis (failKey d .loginAccount account) := by
        unfold Environment.incremented at hnone
        unfold Environment.increment
        split at hnone
        · cases hnone
        · cases hnone
        · rename_i value hvalue hfound
          rw [hfound]
          cases value with
          | number n => exact absurd rfl (hvalue n)
          | _ => rfl
      exact .nothing ⟨hcounter,hnext,by rw [hseen],by rw [hseen]⟩ hseen hno
    · have hcut := recorded_after hn (.cut _ _)
      cases hcut with
      | nothing hkept hseen _ => exact .nothing hkept hseen hno
      | started hcounted hexpired hblocked _ => exact .started hcounted hexpired hblocked hno
      | first hcounted hexpired htu hclock hcounter hblocked _ =>
        exact .first hcounted hexpired htu hclock hcounter hblocked fun m hm => absurd hm (hno m)
      | next hentry hlive hvalue hcounted hexpired hbefore hclock hcounter hblocked _ =>
        exact .next hentry hlive hvalue hcounted hexpired hbefore hclock hcounter hblocked
          fun m hm => absurd hm (hno m)
  · rcases reaches_redisIncr hincr with ⟨hcut,_⟩|⟨rfl,⟨_,hnone⟩|⟨m,hm,hsame⟩⟩
    · cases hcut
    · exact absurd rfl (hnone n)
    · have hnm := hsame n rfl
      subst hnm
      exact recorded_after hm hrest

end Counting

section Calls

variable {d : Deployment} {email password : String} {ip ua : Option String}

/-- The sign-in finds an account and the password is wrong. -/
def WrongPassword (d : Deployment) (email password : String) (ip : Option String) (w : World) :
    Prop :=
  ∃ user,((loginGuards d email ip).run World.perform w).1=.ok (some user) ∧
    passwordOk password (some user)=false

/-- Recording a failure does not touch the rows of users. -/
theorem Recorded.blocked {account : String} {s s' : Watched} {o : Option (Except Failure ℕ)}
    (h : Recorded d account s o s') : s'.2.blocked=s.2.blocked := by
  cases h with
  | nothing _ hseen _ => rw [hseen]
  | started _ _ hblocked _ => exact hblocked
  | first _ _ _ _ _ hblocked _ => exact hblocked
  | next _ _ _ _ _ _ _ _ hblocked _ => exact hblocked

/-- The other scope of a sign-in has another counter. -/
theorem apart_recordFailure (d : Deployment) (identifier account : String) :
    (recordFailure d .login identifier).Within (Apart (failKey d .loginAccount account)) := by
  have hincr : (redisIncr (failKey d .login identifier)).Within
      (Apart (failKey d .loginAccount account)) := by
    refine ⟨nofun,fun reply => ?_⟩
    cases reply with
    | none => trivial
    | some n => trivial
  have hset : (redisSet (lockKey d .login identifier) (.text "1")
      (policy d.settings .login).lockSeconds).Within (Apart (failKey d .loginAccount account)) := by
    unfold redisSet
    split
    · trivial
    · exact ⟨nofun,fun _ => trivial⟩
  rw [recordFailure_eq]
  refine within_bind hincr fun n => ?_
  have hlock : (if (policy d.settings .login).maxAttempts≤n then
      (redisSet (lockKey d .login identifier) (.text "1")
        (policy d.settings .login).lockSeconds).bind fun _ =>
          (redisDelete [failKey d .login identifier]).bind fun _ => .pure n
      else .pure n : Action ℕ).Within (Apart (failKey d .loginAccount account)) := by
    rw [within_ite]
    refine ⟨fun _ => within_bind hset fun _ => ⟨?_,fun _ => trivial⟩,fun _ => trivial⟩
    simp [Apart,failKey]
  simp only [afterIncrement,monad_bind,monad_pure]
  rw [within_ite]
  exact ⟨fun _ => ⟨nofun,fun _ => hlock⟩,fun _ => hlock⟩

/-- The report of a failed sign-in. -/
theorem inside_report (d : Deployment) (email : String) (ip ua : Option String)
    (user : Option LoadedUser) (blocked : Bool) :
    Inside (report d email ip ua user blocked) [.insert .auditEvents,.commit] := by
  refine inside_bind ((inside_logEvent _ _ _ _ _ _ _ _).widen rfl) fun _ => ?_
  refine inside_bind (inside_commit.widen rfl) fun _ => ?_
  split
  · trivial
  · trivial

/-- A rejected password ends with an exception. -/
theorem neverReturns_report (d : Deployment) (email : String) (ip ua : Option String)
    (user : Option LoadedUser) (blocked : Bool) :
    (report d email ip ua user blocked).NeverReturns := by
  refine neverReturns_bind fun _ => neverReturns_bind fun _ => ?_
  split
  · trivial
  · trivial

/-- Nothing was seen and the counter is kept. -/
structure Quiet (k : RedisKey) (s s' : Watched) : Prop where
  /-- The counter. -/
  kept : Kept k s s'
  /-- Nothing new is seen. -/
  seen : s'.2=s.2

/-- Quiet stretches compose. -/
theorem Quiet.trans {k : RedisKey} {a b c : Watched} (hab : Quiet k a b) (hbc : Quiet k b c) :
    Quiet k a c := ⟨hab.kept.trans hbc.kept,hbc.seen.trans hab.seen⟩

/-- A part that is apart from the counter and keeps users is quiet. -/
theorem quiet_reaches {α : Type} {k : RedisKey} {p : Action α} {s s' : Watched}
    {o : Option (Except Failure α)} (hp : p.Within (Apart k)) (hu : p.Within KeepsUsers)
    (h : Reaches (watch k) p s o s') : Quiet k s s' := by
  have hkept := kept_reaches hp h
  have hblocked := blocked_reaches hu h
  refine ⟨hkept,?_⟩
  rcases hseen : s'.2 with ⟨c,e,b⟩
  rcases hbefore : s.2 with ⟨c',e',b'⟩
  have hcounted := hkept.counted
  have hexpired := hkept.expired
  simp_all

/-- The counter of an account with nothing seen. -/
theorem reaches_recordAccountFailure {account : String} {user : LoadedUser} {s s' : Watched}
    {o : Option (Except Failure Bool)} (hs : s.2=Seen.nothing)
    (h : Reaches (watch (failKey d .loginAccount account))
      (recordAccountFailure d account (some user)) s o s') :
    ∃ o₁ s₁,Recorded d account s o₁ s₁ ∧ Kept (failKey d .loginAccount account) s₁ s' ∧
      (s'.2.blocked=true → ∃ n,o₁=some (.ok n) ∧ d.settings.bruteForceLoginMaxAttempts≤n) := by
  have hcounted : s.2.counted=none := by rw [hs]; rfl
  have hfresh : ∀ {o₁ s₁},Recorded d account s o₁ s₁ → ¬s₁.2.blocked=true := by
    intro o₁ s₁ hrecorded
    rw [hrecorded.blocked,hs]
    exact nofun
  rcases reaches_bind h with ⟨o₁,hrecord,_⟩|⟨n,s₁,hrecord,hrest⟩
  · have hrecorded := recorded_reaches hcounted hrecord
    exact ⟨o₁,s',hrecorded,Kept.refl s',fun hb => absurd hb (hfresh hrecorded)⟩
  · have hrecorded := recorded_reaches hcounted hrecord
    simp only [monad_bind,monad_pure] at hrest
    split at hrest
    · rename_i hmax
      have hflush : Inside ((UserRepository.flushLoginBlocked user).bind fun _ => .pure true)
          [.update .users] := inside_bind (inside_flushUpdate _ _ _) fun _ => trivial
      exact ⟨_,s₁,hrecorded,kept_reaches (apart_of_inside hflush (by decide) _ _) hrest,
        fun _ => ⟨n,rfl,hmax⟩⟩
    · obtain ⟨hsame,_⟩ := reaches_pure hrest
      subst hsame
      exact ⟨_,s',hrecorded,Kept.refl s',fun hb => absurd hb (hfresh hrecorded)⟩

/-- How a sign-in ends for the counter of its account. -/
inductive SignedIn (d : Deployment) (email password : String) (ip : Option String) (w : World)
    (o : Option (Except Failure LoginStepResult)) (s' : Watched) : Prop where
  /-- The counter is kept and the sign-in fails. -/
  | kept (hquiet : Quiet (failKey d .loginAccount (d.lower email)) (w,Seen.nothing) s')
      (hno : ∀ r,o≠some (.ok r))
  /-- The counter is removed. -/
  | cleared (hgone : s'.1.env.redis (failKey d .loginAccount (d.lower email))=none)
      (hclock : w.env.clock≤ s'.1.env.clock) (hblocked : s'.2.blocked=false)
  /-- A wrong password is recorded. -/
  | failed {o₁ : Option (Except Failure ℕ)} {s₀ s₁ : Watched}
      (hwrong : WrongPassword d email password ip w)
      (hbefore : Quiet (failKey d .loginAccount (d.lower email)) (w,Seen.nothing) s₀)
      (hrecorded : Recorded d (d.lower email) s₀ o₁ s₁)
      (hafter : Kept (failKey d .loginAccount (d.lower email)) s₁ s')
      (hblocked : s'.2.blocked=true → ∃ n,o₁=some (.ok n) ∧
        d.settings.bruteForceLoginMaxAttempts≤n)
      (hno : ∀ r,o≠some (.ok r))

/-- The counter after its deletion. -/
theorem reaches_grantAccess {user : LoadedUser} {account identifier : String} {s s' : Watched}
    {o : Option (Except Failure LoginStepResult)}
    (h : Reaches (watch (failKey d .loginAccount account))
      (grantAccess d user account identifier ip ua) s o s') :
    (Quiet (failKey d .loginAccount account) s s' ∧ ∀ r,o≠some (.ok r)) ∨
      (s'.1.env.redis (failKey d .loginAccount account)=none ∧ s.1.env.clock≤ s'.1.env.clock ∧
        s'.2.blocked=s.2.blocked) := by
  have hfirst : (clearFailures d .login identifier).Within
      (Apart (failKey d .loginAccount account)) := by
    refine ⟨?_,fun _ => trivial⟩
    simp [Apart,failKey,lockKey]
  have hkeeps : (clearFailures d .login identifier).Within KeepsUsers := ⟨trivial,fun _ => trivial⟩
  rcases reaches_bind h with ⟨_,hcut,hno⟩|⟨_,s₁,hdone,hrest⟩
  · exact .inl ⟨quiet_reaches hfirst hkeeps hcut,hno⟩
  · have hquiet := quiet_reaches hfirst hkeeps hdone
    rcases reaches_call hrest with ⟨rfl,rfl⟩|hlast
    · exact .inl ⟨hquiet,by rintro _ ⟨⟩⟩
    · let s₂ := (watch (failKey d .loginAccount account) (.external (.redisDelete
        [failKey d .loginAccount account,lockKey d .loginAccount account])) s₁).2
      have hgone : s₂.1.env.redis (failKey d .loginAccount account)=none := by
        show Store.removeAll _ _ _=none
        have hne : failKey d .loginAccount account≠lockKey d .loginAccount account := by rintro ⟨⟩
        simp [Store.removeAll,Store.remove_of_ne _ hne]
      have hclock : s₁.1.env.clock≤ s₂.1.env.clock := Environment.clock_le_perform _ _ _
      have hinside : Inside (if user.row.twoFactorEnabled then
          (createLoginChallenge d user.row.id ip).bind fun challengeId =>
            (.pure ⟨true,some challengeId,none⟩ : Action LoginStepResult)
          else (RefreshTokenService.issueForUser d user.row.id ip ua).bind fun tokenPair =>
            (AuditService.logEvent d "auth.login.success" "success" (some user.row.id)
              (some user.row.id) ip ua []).bind
              fun _ => commit.bind fun _ => .pure ⟨false,none,some tokenPair⟩)
          ([.draw,.redisWrite .challenge,.insert .auditEvents,.commit]++issue) := by
        split
        · exact inside_bind ((inside_createLoginChallenge d _ ip).widen rfl) fun _ => trivial
        · exact inside_bind ((inside_issueForUser d _ ip ua).widen rfl) fun _ =>
            inside_bind ((inside_logEvent _ _ _ _ _ _ _ _).widen rfl) fun _ =>
            inside_bind (inside_commit.widen rfl) fun _ => trivial
      have hquiet₂ := quiet_reaches (apart_of_inside hinside (by decide) _ _)
        (keepsUsers_of_inside hinside (by decide)) hlast
      refine .inr ⟨hquiet₂.kept.counter.trans hgone,?_,?_⟩
      · exact hquiet.kept.clock.trans (hclock.trans hquiet₂.kept.clock)
      · rw [hquiet₂.seen]
        show s₁.2.blocked=_
        rw [hquiet.seen]

/-- How a rejected password ends. -/
theorem reaches_rejectPassword {user : Option LoadedUser} {s s' : Watched}
    {o : Option (Except Failure LoginStepResult)} (hs : s.2=Seen.nothing)
    (h : Reaches (watch (failKey d .loginAccount (d.lower email)))
      (rejectPassword d user (d.lower email) (loginIdentifier d email ip) ip ua) s o s') :
    (∀ r,o≠some (.ok r)) ∧ (Quiet (failKey d .loginAccount (d.lower email)) s s' ∨
      user.isSome=true ∧ ∃ s₀ o₁ s₁,Quiet (failKey d .loginAccount (d.lower email)) s s₀ ∧
        Recorded d (d.lower email) s₀ o₁ s₁ ∧
        Kept (failKey d .loginAccount (d.lower email)) s₁ s' ∧
        (s'.2.blocked=true → ∃ n,o₁=some (.ok n) ∧
          d.settings.bruteForceLoginMaxAttempts≤n)) := by
  rw [rejectPassword_eq] at h
  have hnever : ((recordFailure d .login (loginIdentifier d email ip)).bind fun _ =>
      (recordAccountFailure d (d.lower email) user).bind (report d email ip ua user)).NeverReturns :=
    neverReturns_bind fun _ => neverReturns_bind fun _ => neverReturns_report d email ip ua user _
  refine ⟨hnever.ne h,?_⟩
  have hapart := apart_recordFailure d (loginIdentifier d email ip) (d.lower email)
  have hkeeps := keepsUsers_of_inside (inside_recordFailure d .login (loginIdentifier d email ip))
    (by decide)
  have hreport : ∀ {blocked s₁ s₂ o},Reaches (watch (failKey d .loginAccount (d.lower email)))
      (report d email ip ua user blocked) s₁ o s₂ →
        Quiet (failKey d .loginAccount (d.lower email)) s₁ s₂ := fun hreach =>
    quiet_reaches (apart_of_inside (inside_report _ _ _ _ _ _) (by decide) _ _)
      (keepsUsers_of_inside (inside_report _ _ _ _ _ _) (by decide)) hreach
  rcases reaches_bind h with ⟨_,hcut,_⟩|⟨_,s₀,hdone,hrest⟩
  · exact .inl (quiet_reaches hapart hkeeps hcut)
  · have hquiet := quiet_reaches hapart hkeeps hdone
    cases user with
    | none => exact .inl (hquiet.trans (hreport hrest))
    | some user =>
      have hs₀ : s₀.2=Seen.nothing := hquiet.seen.trans hs
      rcases reaches_bind hrest with ⟨_,hcut,_⟩|⟨_,s₂,hrecord,hlast⟩
      · obtain ⟨o₁,s₁,hrecorded,hkept,hblocked⟩ := reaches_recordAccountFailure hs₀ hcut
        exact .inr ⟨rfl,s₀,o₁,s₁,hquiet,hrecorded,hkept,hblocked⟩
      · obtain ⟨o₁,s₁,hrecorded,hkept,hblocked⟩ := reaches_recordAccountFailure hs₀ hrecord
        have hquiet₂ := hreport hlast
        refine .inr ⟨rfl,s₀,o₁,s₁,hquiet,hrecorded,hkept.trans hquiet₂.kept,fun hb => hblocked ?_⟩
        rwa [hquiet₂.seen] at hb

/-- How a sign-in ends. -/
theorem reaches_login {w : World} {s' : Watched} {o : Option (Except Failure LoginStepResult)}
    (h : Reaches (watch (failKey d .loginAccount (d.lower email))) (login d email password ip ua)
      (w,Seen.nothing) o s') : SignedIn d email password ip w o s' := by
  rw [login_eq] at h
  have hinside := inside_loginGuards d email ip
  have hapart := apart_of_inside hinside (by decide) .loginAccount
    (stableHmacDigest (d.lower email) d.settings.privacyKeyPepper)
  have hkeeps := keepsUsers_of_inside hinside (by decide)
  rcases reaches_bind h with ⟨_,hcut,hno⟩|⟨user,s₀,hdone,hrest⟩
  · exact .kept (quiet_reaches hapart hkeeps hcut) hno
  · have hquiet := quiet_reaches hapart hkeeps hdone
    have hrun : ((loginGuards d email ip).run World.perform w).1=.ok user := by
      rw [←(run_watch (failKey d .loginAccount (d.lower email)) (loginGuards d email ip)
        (w,Seen.nothing)).1,reaches_run hdone rfl]
    cases hok : passwordOk password user with
    | false =>
      rw [judge_of_not_ok _ _ _ _ _ hok] at hrest
      obtain ⟨hno,hquiet₂|⟨hsome,s₁,o₁,s₂,hbefore,hrecorded,hafter,hblocked⟩⟩ :=
        reaches_rejectPassword hquiet.seen hrest
      · exact .kept (hquiet.trans hquiet₂) hno
      · obtain ⟨account,rfl⟩ := Option.isSome_iff_exists.mp hsome
        exact .failed ⟨account,hrun,hok⟩ (hquiet.trans hbefore) hrecorded hafter hblocked hno
    | true =>
      cases user with
      | none => cases hok
      | some account =>
        have hverified : PasswordService.verifyPassword password account.row.passwordHash=true := hok
        simp only [judge,hverified,Bool.not_true,Bool.false_eq_true,if_false] at hrest
        split at hrest
        · have hnever : (refuse d (some account.row.id) ip ua
              [("email",.str (d.lower email)),("reason",.str "inactive_account")]
              .invalidCredentials : Action LoginStepResult).NeverReturns :=
            neverReturns_bind fun _ => neverReturns_bind fun _ => trivial
          have hrefuse := inside_refuse (α := LoginStepResult) d (some account.row.id) ip ua
            [("email",.str (d.lower email)),("reason",.str "inactive_account")] .invalidCredentials
          exact .kept (hquiet.trans (quiet_reaches (apart_of_inside hrefuse (by decide) _ _)
            (keepsUsers_of_inside hrefuse (by decide)) hrest)) (hnever.ne hrest)
        · rcases reaches_grantAccess hrest with ⟨hquiet₂,hno⟩|⟨hgone,hclock,hblocked⟩
          · exact .kept (hquiet.trans hquiet₂) hno
          · refine .cleared hgone (hquiet.kept.clock.trans hclock) ?_
            rw [hblocked,hquiet.seen]
            rfl

end Calls

section Runs

variable {d : Deployment} {account : String}

/-- One sign-in of a run, cut or not. -/
structure Call where
  /-- `email`. -/
  email : String
  /-- `password`. -/
  password : String
  /-- `ip_address`. -/
  ipAddress : Option String
  /-- `user_agent`. -/
  userAgent : Option String
  /-- The world it starts in. -/
  world : World
  /-- Its outcome, if it was not cut. -/
  outcome : Option (Except Failure LoginStepResult)
  /-- The world it ends in, and what was seen of it. -/
  final : Watched

namespace Call

/-- The sign-in succeeds. -/
def Successful (call : Call) : Prop := ∃ result,call.outcome=some (.ok result)

/-- The password of the account is wrong. -/
def Wrong (d : Deployment) (call : Call) : Prop :=
  WrongPassword d call.email call.password call.ipAddress call.world

/-- When the sign-in counted a wrong password. -/
def recordedAt (call : Call) : Option Instant := call.final.2.counted.map (·.2)

/-- The increment that starts the counter is followed at once by the command
that sets its expiry: nothing fails and no time passes between the two. -/
def Guarded (call : Call) : Prop :=
  ∀ instant,call.final.2.counted=some (1,instant) → call.final.2.expired=some instant

/-- The sign-in is possible: it starts in its world and ends in `final`. -/
def Possible (d : Deployment) (account : String) (call : Call) : Prop :=
  Reaches (watch (failKey d .loginAccount account))
    (login d call.email call.password call.ipAddress call.userAgent)
    (call.world,Seen.nothing) call.outcome call.final

end Call

/-- Sign-ins on one account, one after another, latest first. Between them time
passes. -/
inductive Runs (d : Deployment) (account : String) : List Call → Environment → Prop where
  /-- No counter yet. -/
  | start {env : Environment} (h : env.redis (failKey d .loginAccount account)=none) :
      Runs d account [] env
  /-- Something else happens. -/
  | other {history : List Call} {env env' : Environment} (h : Runs d account history env)
      (hclock : env.clock≤env'.clock)
      (hcounter : env'.redis (failKey d .loginAccount account)=
        env.redis (failKey d .loginAccount account)) : Runs d account history env'
  /-- The next sign-in. -/
  | call {history : List Call} (call : Call) (h : Runs d account history call.world.env)
      (hemail : d.lower call.email=account) (hpossible : call.Possible d account) :
      Runs d account (call::history) call.final.1.env

/-- Enough wrong passwords without a success since, each recorded in the last
window before an instant. -/
def Earned (d : Deployment) (calls : List Call) (attempts : ℕ) (instant : Instant) : Prop :=
  ∃ recent earlier,calls=recent++earlier ∧ (∀ call∈recent,¬call.Successful) ∧
    ∃ wrong : List Call,wrong.Sublist recent ∧ attempts≤wrong.length ∧
      ∀ call∈wrong,call.Wrong d ∧ ∃ t,call.recordedAt=some t ∧
        instant≤t+seconds d.settings.bruteForceLoginWindowSeconds

/-- Every sign-in that blocks the account has counted a wrong password at an
instant before which enough of them were recorded. -/
def BlocksEarned (d : Deployment) : List Call → Prop
  | [] => True
  | latest::history =>
    (latest.final.2.blocked=true → ∃ n instant,latest.final.2.counted=some (n,instant) ∧
      Earned d (latest::history) d.settings.bruteForceLoginMaxAttempts instant) ∧
    BlocksEarned d history

/-- The counter counts wrong passwords without a success since, all recorded
less than a window before its expiry. -/
def Counts (d : Deployment) (account : String) (history : List Call) (env : Environment) : Prop :=
  env.redis (failKey d .loginAccount account)=none ∨
    ∃ n expiry,env.redis (failKey d .loginAccount account)=some ⟨.number n,some expiry⟩ ∧ 1≤n ∧
      ∃ recent earlier,history=recent++earlier ∧ (∀ call∈recent,¬call.Successful) ∧
        ∃ wrong : List Call,wrong.Sublist recent ∧ wrong.length=n ∧
          ∀ call∈wrong,call.Wrong d ∧ ∃ t,call.recordedAt=some t ∧
            expiry≤t+seconds d.settings.bruteForceLoginWindowSeconds ∧ t≤env.clock

/-- Time and a kept counter change nothing. -/
theorem Counts.later {history : List Call} {env env' : Environment}
    (h : Counts d account history env) (hclock : env.clock≤env'.clock)
    (hcounter : env'.redis (failKey d .loginAccount account)=
      env.redis (failKey d .loginAccount account)) : Counts d account history env' := by
  rcases h with hnone|⟨n,expiry,hentry,hn,recent,earlier,hsplit,hno,wrong,hsub,hlength,hwrong⟩
  · exact .inl (hcounter.trans hnone)
  · refine .inr ⟨n,expiry,hcounter.trans hentry,hn,recent,earlier,hsplit,hno,wrong,hsub,hlength,
      fun other hother => ?_⟩
    obtain ⟨hpassword,t,hrecorded,hwindow,hbefore⟩ := hwrong other hother
    exact ⟨hpassword,t,hrecorded,hwindow,hbefore.trans hclock⟩

/-- A sign-in that fails and keeps the counter. -/
theorem Counts.skip {history : List Call} {env : Environment} {call : Call}
    (h : Counts d account history env) (hno : ¬call.Successful) :
    Counts d account (call::history) env := by
  rcases h with hnone|⟨n,expiry,hentry,hn,recent,earlier,hsplit,hfails,wrong,hsub,hlength,hwrong⟩
  · exact .inl hnone
  · refine .inr ⟨n,expiry,hentry,hn,call::recent,earlier,?_,?_,wrong,hsub.cons call,hlength,hwrong⟩
    · rw [hsplit]
      rfl
    · intro other hother
      rcases List.mem_cons.mp hother with rfl|hold
      · exact hno
      · exact hfails other hold

/-- A guarded sign-in keeps the count, and a block is earned. -/
theorem Counts.call {history : List Call} {call : Call}
    (h : Counts d account history call.world.env) (hemail : d.lower call.email=account)
    (hpossible : call.Possible d account) (hguarded : call.Guarded) :
    Counts d account (call::history) call.final.1.env ∧
      (call.final.2.blocked=true → ∃ n instant,call.final.2.counted=some (n,instant) ∧
        Earned d (call::history) d.settings.bruteForceLoginMaxAttempts instant) := by
  subst hemail
  cases reaches_login hpossible with
  | kept hquiet hno =>
    have hfails : ¬call.Successful := fun ⟨r,hr⟩ => hno r hr
    refine ⟨(h.later hquiet.kept.clock hquiet.kept.counter).skip hfails,fun hb => ?_⟩
    rw [hquiet.seen] at hb
    cases hb
  | cleared hgone hclock hblocked =>
    refine ⟨.inl hgone,fun hb => ?_⟩
    rw [hblocked] at hb
    cases hb
  | @failed o₁ s₀ s₁ hwrong hbefore hrecorded hafter hblocked hno =>
    have hfails : ¬call.Successful := fun ⟨r,hr⟩ => hno r hr
    have h₀ : Counts d (d.lower call.email) history s₀.1.env :=
      h.later hbefore.kept.clock hbefore.kept.counter
    cases hrecorded with
    | nothing hkept hseen hnone =>
      have h₁ := h₀.later hkept.clock hkept.counter
      refine ⟨(h₁.later hafter.clock hafter.counter).skip hfails,fun hb => ?_⟩
      obtain ⟨n,hn,_⟩ := hblocked hb
      exact absurd hn (hnone n)
    | @started t hcounted hexpired _ hnone =>
      have hcut : call.final.2.expired=none := by
        rw [hafter.expired,hexpired,hbefore.seen]
        rfl
      have hset := hguarded t (hafter.counted.trans hcounted)
      rw [hcut] at hset
      cases hset
    | @first t u hcounted hexpired htu hclock hcounter _ hm =>
      have hat : call.recordedAt=some t := by
        rw [Call.recordedAt,hafter.counted,hcounted]
        rfl
      have hset := hguarded t (hafter.counted.trans hcounted)
      rw [hafter.expired,hexpired] at hset
      obtain rfl : t=u := (Option.some.inj hset).symm
      have halone : ∀ other∈[call],¬other.Successful := by
        intro other hother
        rw [List.mem_singleton.mp hother]
        exact hfails
      refine ⟨?_,fun hb => ⟨1,t,hafter.counted.trans hcounted,?_⟩⟩
      · unfold Counts
        rw [hafter.counter]
        rcases hcounter with hgone|hset
        · exact .inl hgone
        · refine .inr ⟨1,_,hset,le_rfl,[call],history,rfl,halone,[call],List.Sublist.refl _,rfl,?_⟩
          intro other hother
          rw [List.mem_singleton.mp hother]
          exact ⟨hwrong,t,hat,le_rfl,hclock.trans hafter.clock⟩
      · obtain ⟨n,hn,hmax⟩ := hblocked hb
        have hone := hm n hn
        refine ⟨[call],history,rfl,halone,[call],List.Sublist.refl _,?_,?_⟩
        · simp only [List.length_singleton]
          omega
        · intro other hother
          rw [List.mem_singleton.mp hother]
          exact ⟨hwrong,t,hat,htu.trans (Nat.le_add_right _ _)⟩
    | @next t n entry hentry hlive hvalue hcounted hexpired hstart hclock hcounter _ hm =>
      have hat : call.recordedAt=some t := by
        rw [Call.recordedAt,hafter.counted,hcounted]
        rfl
      rcases h₀ with hnone|⟨n',expiry,hfound,hn,recent,earlier,hsplit,hold,wrong,hsub,hlength,hall⟩
      · rw [hnone] at hentry
        cases hentry
      · have heq : (⟨.number n',some expiry⟩ : Entry RedisValue)=entry :=
          Option.some.inj (hfound.symm.trans hentry)
        subst heq
        have hsame : n'=n := RedisValue.number.inj hvalue
        subst hsame
        have hearly : t < expiry := of_decide_eq_true hlive
        have hsplit' : call::history=(call::recent)++earlier := by
          rw [hsplit]
          rfl
        have hnew : ∀ other∈call::recent,¬other.Successful := by
          intro other hother
          rcases List.mem_cons.mp hother with rfl|hrest
          · exact hfails
          · exact hold other hrest
        have hlonger : (call::wrong).length=n'+1 := by rw [List.length_cons,hlength]
        have hexpiry : expiry≤t+seconds d.settings.bruteForceLoginWindowSeconds := by
          obtain ⟨first,hfirst⟩ := List.exists_mem_of_length_pos (by omega : 0 < wrong.length)
          obtain ⟨_,t',_,hwindow,hearlier⟩ := hall first hfirst
          exact hwindow.trans (Nat.add_le_add_right (hearlier.trans hstart) _)
        refine ⟨?_,fun hb => ⟨n'+1,t,hafter.counted.trans hcounted,?_⟩⟩
        · unfold Counts
          rw [hafter.counter]
          rcases hcounter with hgone|hset
          · exact .inl hgone
          · refine .inr ⟨n'+1,expiry,hset,by omega,call::recent,earlier,hsplit',hnew,call::wrong,
              hsub.cons_cons call,hlonger,?_⟩
            intro other hother
            rcases List.mem_cons.mp hother with rfl|hrest
            · exact ⟨hwrong,t,hat,hexpiry,hclock.trans hafter.clock⟩
            · obtain ⟨hpassword,t',hrecorded,hwindow,hearlier⟩ := hall other hrest
              exact ⟨hpassword,t',hrecorded,hwindow,
                hearlier.trans (hstart.trans (hclock.trans hafter.clock))⟩
        · obtain ⟨m,hcount,hmax⟩ := hblocked hb
          have hreturned := hm m hcount
          refine ⟨call::recent,earlier,hsplit',hnew,call::wrong,hsub.cons_cons call,by omega,?_⟩
          intro other hother
          rcases List.mem_cons.mp hother with rfl|hrest
          · exact ⟨hwrong,t,hat,Nat.le_add_right _ _⟩
          · obtain ⟨hpassword,t',hrecorded,hwindow,_⟩ := hall other hrest
            exact ⟨hpassword,t',hrecorded,(Nat.le_of_lt hearly).trans hwindow⟩

/-- In a run whose sign-ins are all guarded the counter counts, and every block
is earned. -/
theorem Runs.counts {history : List Call} {env : Environment} (h : Runs d account history env)
    (hguarded : ∀ call∈history,call.Guarded) :
    Counts d account history env ∧ BlocksEarned d history := by
  induction h with
  | start hnone => exact ⟨.inl hnone,trivial⟩
  | other _ hclock hcounter ih =>
    obtain ⟨hcounts,hearned⟩ := ih hguarded
    exact ⟨hcounts.later hclock hcounter,hearned⟩
  | call call _ hemail hpossible ih =>
    obtain ⟨hcounts,hearned⟩ := ih fun other hother => hguarded other (List.mem_cons_of_mem _ hother)
    obtain ⟨hnext,hblock⟩ := hcounts.call hemail hpossible (hguarded call List.mem_cons_self)
    exact ⟨hnext,hblock,hearned⟩

/-- A block is earned inside one window, in every run of sign-ins that may be
cut anywhere but between the increment that starts the counter and the command
that sets its expiry, which follows without delay. -/
theorem blocks_are_earned {history : List Call} {env : Environment}
    (h : Runs d account history env) (hguarded : ∀ call∈history,call.Guarded) :
    BlocksEarned d history := by
  have hcounts := h.counts hguarded
  exact hcounts.2

/-- A complete sign-in on the sample account with a wrong password. -/
def wrongSignIn (w : World) : Call :=
  let run := (login sampleDeployment "a@b" "wrong" none none).run
    (watch (failKey sampleDeployment .loginAccount "a@b")) (w,Seen.nothing)
  ⟨"a@b","wrong",none,none,w,some run.1,run.2⟩

/-- The same sign-in, cut after the increment of the counter of the account. -/
def cutSignIn (w : World) : Call :=
  ⟨"a@b","wrong",none,none,w,none,
    stop (watch (failKey sampleDeployment .loginAccount "a@b")) 8
      (login sampleDeployment "a@b" "wrong" none none) (w,Seen.nothing)⟩

/-- The world after a sign-in and a pause. -/
def pausedWorld (call : Call) (pause : ℕ) : World :=
  {call.final.1 with env := call.final.1.env.tick pause}

/-- The world of a registered account. -/
def registeredWorld : World := registeredServer.world []

/-- Both are possible. -/
theorem possible_wrongSignIn (w : World) :
    (wrongSignIn w).Possible sampleDeployment "a@b" := reaches_of_run _ _

/-- The sample sign-in is one that the service can run. -/
theorem possible_cutSignIn (w : World) :
    (cutSignIn w).Possible sampleDeployment "a@b" := reaches_stop _ _ _

/-- The sample account has no counter yet. -/
theorem runs_registered : Runs sampleDeployment "a@b" [] registeredWorld.env := .start rfl

/-- The sample address is in lower case. -/
theorem lower_sample : sampleDeployment.lower "a@b"="a@b" := by
  decide

/-- A sign-in after a pause. -/
theorem runs_wrongSignIn {history : List Call} {call : Call} (pause : ℕ)
    (h : Runs sampleDeployment "a@b" history call.final.1.env) :
    Runs sampleDeployment "a@b" (wrongSignIn (pausedWorld call pause)::history)
      (wrongSignIn (pausedWorld call pause)).final.1.env :=
  .call (wrongSignIn (pausedWorld call pause)) (h.other (Nat.le_add_right _ _) rfl) lower_sample
    (possible_wrongSignIn _)

/-- Two wrong passwords within ten seconds. -/
def earnedRun : List Call :=
  [wrongSignIn (pausedWorld (wrongSignIn registeredWorld) (seconds 10)),
    wrongSignIn registeredWorld]

/-- A run with two wrong passwords in the window, whose block is earned. -/
theorem blocks_are_earned_twice : (∃ env,Runs sampleDeployment "a@b" earnedRun env) ∧
    (earnedRun.head?.map fun call => call.final.2.blocked)=some true ∧
      BlocksEarned sampleDeployment earnedRun := by
  have hfirst : (wrongSignIn registeredWorld).final.2=⟨some (1,seconds 3000),
      some (seconds 3000),false⟩ := by decide +kernel
  have hsecond : (wrongSignIn (pausedWorld (wrongSignIn registeredWorld) (seconds 10))).final.2=
      ⟨some (2,seconds 3010),none,true⟩ := by decide +kernel
  have hruns := runs_wrongSignIn (seconds 10) (.call (wrongSignIn registeredWorld) runs_registered
    lower_sample (possible_wrongSignIn _))
  refine ⟨⟨_,hruns⟩,?_,blocks_are_earned hruns fun call hcall => ?_⟩
  · rw [earnedRun,List.head?_cons,Option.map_some,hsecond]
  · intro instant hcounted
    rcases List.mem_cons.mp hcall with rfl|hlast
    · rw [hsecond] at hcounted
      cases hcounted
    · rw [List.mem_singleton.mp hlast,hfirst] at hcounted ⊢
      cases hcounted
      rfl

/-- The first of two wrong passwords is counted without an expiry; the second
blocks the account long after the window. -/
theorem block_after_window : ∃ history env,Runs sampleDeployment "a@b" history env ∧
    ¬BlocksEarned sampleDeployment history := by
  have hfirst : (cutSignIn registeredWorld).final.2=⟨some (1,seconds 3000),none,false⟩ := by
    decide +kernel
  have hsecond : (wrongSignIn (pausedWorld (cutSignIn registeredWorld) (seconds 1000))).final.2=
      ⟨some (2,seconds 4000),none,true⟩ := by decide +kernel
  refine ⟨_,_,runs_wrongSignIn (seconds 1000) (.call (cutSignIn registeredWorld) runs_registered
    lower_sample (possible_cutSignIn _)),fun hearned => ?_⟩
  obtain ⟨n,instant,hcounted,recent,earlier,hsplit,_,wrong,hsub,hlength,hall⟩ :=
    hearned.1 (by rw [hsecond])
  rw [hsecond] at hcounted
  cases hcounted
  have hbegins : recent.Sublist (recent++earlier) := List.sublist_append_left recent earlier
  rw [←hsplit] at hbegins
  have hwhole : wrong=_ := (hsub.trans hbegins).eq_of_length_le hlength
  obtain ⟨_,t,hrecorded,hwindow⟩ := hall (cutSignIn registeredWorld)
    (hwhole ▸ List.mem_cons_of_mem _ List.mem_cons_self)
  rw [Call.recordedAt,hfirst] at hrecorded
  cases hrecorded
  exact absurd hwindow (by decide)

end Runs

end BackendPlatform.EarnedBlocks
