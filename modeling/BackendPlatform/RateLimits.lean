import BackendPlatform.AuthRecords
import BackendPlatform.ExpiringStore
import BackendPlatform.InterleavedRuns
import Mathlib.Data.List.Nodup
import Mathlib.Data.List.Perm.Subperm

/-!
# Rate limits of the three services

A check reads the clock, increments the counter of its minute and gives a new
counter 61 seconds to live. Checks interleave command by command; a command
may fail before or after Redis has performed it, and a check may die between
two commands.
-/

set_option autoImplicit false

namespace BackendPlatform.RateLimits

open ProgramTrees InterleavedRuns ExpiringStore AuthRecords

/-- `rate_limit:{scope}:{ip}:{bucket}`. -/
structure RateKey where
  /-- The scope. -/
  scope : String
  /-- The digest of the client's address. -/
  ip : Hmac String
  /-- The minute. -/
  bucket : ℕ
deriving DecidableEq

/-- What a check can raise. -/
inductive RateFailure where
  /-- `RedisError`. -/
  | redisError
  /-- `ServiceUnavailableException`. -/
  | serviceUnavailable (message : String)
  /-- `TooManyRequestsException`. -/
  | tooManyRequests (message : String)
deriving DecidableEq

/-- The effects of a check. -/
inductive RateEffect where
  /-- `time.time()`, in microseconds. -/
  | time
  /-- `INCR`. -/
  | incr (key : RateKey)
  /-- `EXPIRE` with an expiry in seconds. -/
  | expire (key : RateKey) (expiry : ℕ)

/-- What they return; a command of Redis may fail. -/
abbrev RateEffect.Reply : RateEffect → Type
  | .time => Instant
  | .incr _ => Option ℕ
  | .expire _ _ => Option Unit

/-- The effect signature of a check. -/
abbrev rateSignature : Signature := ⟨RateEffect,RateEffect.Reply⟩

/-- An operation of a check. -/
abbrev RateAction (α : Type) := Program rateSignature RateFailure α

/-- `time.time()`. -/
def time : RateAction Instant := .call (σ := rateSignature) RateEffect.time .pure

/-- `redis.incr`. -/
def incr (key : RateKey) : RateAction ℕ :=
  .call (σ := rateSignature) (RateEffect.incr key) fun reply => match reply with
    | some count => .pure count
    | none => .raise .redisError

/-- `redis.expire`. -/
def expire (key : RateKey) (expiry : ℕ) : RateAction Unit :=
  .call (σ := rateSignature) (RateEffect.expire key expiry) fun reply => match reply with
    | some _ => .pure ()
    | none => .raise .redisError

/-- `except RedisError`. -/
def onRedisError {α : Type} (failure : RateFailure) (error : RateFailure) : RateAction α :=
  if error=.redisError then throw failure else throw error

namespace ApiGateway

/-- `RateLimiter.check` of the gateway. -/
def check (pepper ip scope : String) (limitPerMinute : ℕ) : RateAction Unit := do
  let clientHash := stableHmacDigest ip pepper
  let bucket := (←time)/1000000/60
  let key : RateKey := ⟨scope,clientHash,bucket⟩
  let current ← tryCatch (do
      let current ← incr key
      if current=1 then
        expire key 61
      return current)
    (onRedisError (.serviceUnavailable "Rate limiter unavailable"))
  if limitPerMinute < current then
    throw (.tooManyRequests "Rate limit exceeded")

end ApiGateway

/-- `_apply_rate_limit`, the same in the authentication and the user service. -/
def applyRateLimit (key : RateKey) (limit windowSeconds : ℕ) : RateAction Unit := do
  let current ← tryCatch (do
      let current ← incr key
      if current=1 then
        expire key windowSeconds
      return current)
    (onRedisError (.serviceUnavailable "Rate limiter unavailable"))
  if limit < current then
    throw (.tooManyRequests "Rate limit exceeded")

/-- `_dependency`, the same in the authentication and the user service. -/
def dependency (pepper ip scope : String) (limitPerMinute : ℕ) : RateAction Unit := do
  let clientHash := stableHmacDigest ip pepper
  let bucket := (←time)/1000000/60
  let key : RateKey := ⟨scope,clientHash,bucket⟩
  applyRateLimit key limitPerMinute 61

namespace AuthService

/-- `rate_limit_dependency` of the authentication service. -/
def rateLimitDependency (pepper ip scope : String) (limitPerMinute : ℕ) : RateAction Unit :=
  dependency pepper ip scope limitPerMinute

end AuthService

namespace UserService

/-- `rate_limit_dependency` of the user service. -/
def rateLimitDependency (pepper ip scope : String) (limitPerMinute : ℕ) : RateAction Unit :=
  dependency pepper ip scope limitPerMinute

end UserService

section Machine

/-- What checks share: the clock, Redis, and for statements about runs the
increments performed so far, with the check that asked for each. -/
structure Shared where
  /-- The common clock, in microseconds. -/
  clock : Instant
  /-- Redis. -/
  redis : Store RateKey ℕ
  /-- The increments, first one first. -/
  incrs : List (RateKey×ℕ)

namespace Shared

/-- The counter after an increment; a missing key counts from zero. -/
def incremented (s : Shared) (key : RateKey) : ℕ := (s.redis.lookup s.clock key).getD 0+1

/-- An increment, which keeps the expiry of an existing key. -/
def increment (s : Shared) (pid : ℕ) (key : RateKey) : Shared :=
  {s with
    redis := match s.redis.lookup s.clock key with
      | none => s.redis.assign key 1 none
      | some count => s.redis.replace key (count+1)
    incrs := s.incrs++[(key,pid)]}

/-- Give an existing key some seconds to live. -/
def retime (s : Shared) (key : RateKey) (expiry : ℕ) : Shared :=
  {s with redis := s.redis.retime s.clock key (s.clock+seconds expiry)}

/-- Time passes. -/
def tick (s : Shared) (delay : ℕ) : Shared := {s with clock := s.clock+delay}

/-- Answer an effect. The choice is the time that passes before it and, for a
command, whether it succeeds, fails unperformed or is performed and loses its
reply. -/
def fire (pid : ℕ) : (op : RateEffect) → ℕ → Shared → Option (Option op.Reply×Shared)
  | .time,choice,s => some (some (s.tick choice).clock,s.tick choice)
  | .incr key,choice,s =>
    match choice%3 with
    | 0 => some (some (some ((s.tick (choice/3)).incremented key)),
        (s.tick (choice/3)).increment pid key)
    | 1 => some (some none,s.tick (choice/3))
    | _ => some (some none,(s.tick (choice/3)).increment pid key)
  | .expire key expiry,choice,s =>
    match choice%3 with
    | 0 => some (some (some ()),(s.tick (choice/3)).retime key expiry)
    | 1 => some (some none,s.tick (choice/3))
    | _ => some (some none,(s.tick (choice/3)).retime key expiry)

end Shared

/-- Concurrent checks. -/
def rateMachine : Machine rateSignature Shared where
  fire := Shared.fire
  close _ s := s

/-- Checks under way. -/
abbrev Checks := System rateSignature RateFailure Unit Shared

/-- A check that begins. -/
abbrev IsCheck (pepper ip scope : String) (limit : ℕ) (p : RateAction Unit) : Prop :=
  p=ApiGateway.check pepper ip scope limit ∨ p=AuthService.rateLimitDependency pepper ip scope limit ∨
    p=UserService.rateLimitDependency pepper ip scope limit

/-- The moves of checks that increment at most a second after the clock has
been read. -/
def Punctual (pepper ip scope : String) (limit : ℕ) (sys : Checks) :
    Move rateSignature RateFailure Unit → Prop
  | .effect pid choice => ∀ key k,
    sys.procs[pid]?=some (some (.call (σ := rateSignature) (RateEffect.incr key) k)) →
      ∀ t,(⟨pid,RateEffect.time,t⟩ : Event rateSignature)∈sys.history →
        sys.shared.clock+choice/3≤t+seconds 1
  | .spawn p => IsCheck pepper ip scope limit p
  | _ => True

/-- A system without checks, whose Redis knows nothing of the client. -/
def Idle (pepper ip scope : String) (sys : Checks) : Prop :=
  sys.procs=[] ∧ sys.history=[] ∧ sys.shared.incrs=[] ∧
    ∀ bucket,sys.shared.redis ⟨scope,stableHmacDigest ip pepper,bucket⟩=none

/-- The checks that incremented a key, in order. -/
def incrementers (sys : Checks) (key : RateKey) : List ℕ :=
  (sys.shared.incrs.filter (·.1=key)).map (·.2)

/-- The check has passed. -/
def Passed (sys : Checks) (pid : ℕ) : Prop := sys.outcome pid=some (.ok ())

/-- The check has been rejected. -/
def Rejected (sys : Checks) (pid : ℕ) : Prop := ∃ e,sys.outcome pid=some (.error e)

/-- The check read this instant from the clock. -/
def Read (sys : Checks) (pid : ℕ) (t : Instant) : Prop :=
  (⟨pid,RateEffect.time,t⟩ : Event rateSignature)∈sys.history

end Machine

section Trees

variable {pepper ip scope : String} {limit : ℕ}

/-- The key of a check that read this instant. -/
def keyAt (pepper ip scope : String) (t : Instant) : RateKey :=
  ⟨scope,stableHmacDigest ip pepper,t/1000000/60⟩

/-- What is left of a check with its count. -/
def verdict (limit count : ℕ) : RateAction Unit :=
  if limit < count then .raise (.tooManyRequests "Rate limit exceeded") else .pure ()

/-- A check that gives up on Redis. -/
def unavailable : RateAction Unit := .raise (.serviceUnavailable "Rate limiter unavailable")

/-- What is left of a check that started its counter. -/
def expiring (limit : ℕ) (key : RateKey) : RateAction Unit :=
  .call (σ := rateSignature) (RateEffect.expire key 61) fun reply => match reply with
    | some _ => verdict limit 1
    | none => unavailable

/-- What is left of a check that has read the clock. -/
def counting (limit : ℕ) (key : RateKey) : RateAction Unit :=
  .call (σ := rateSignature) (RateEffect.incr key) fun reply => match reply with
    | some count => if count=1 then expiring limit key else verdict limit count
    | none => unavailable

/-- The tree of a check. -/
def checking (pepper ip scope : String) (limit : ℕ) : RateAction Unit :=
  .call (σ := rateSignature) RateEffect.time fun t => counting limit (keyAt pepper ip scope t)

/-- The authentication and the user service run one check. -/
theorem dependency_eq : dependency pepper ip scope limit=checking pepper ip scope limit := by
  refine congrArg (Program.call _) (funext fun t => congrArg (Program.call _) (funext fun r => ?_))
  cases r with
  | none => rfl
  | some count =>
    by_cases hone : count=1
    · subst hone
      refine congrArg (Program.call _) (funext fun r => ?_)
      cases r <;> rfl
    · show _=if count=1 then expiring limit _ else verdict limit count
      simp only [hone,Program.monad_bind,Program.monad_pure,Program.pure_bind,if_false]
      rfl

/-- The gateway runs the same check. -/
theorem check_eq : ApiGateway.check pepper ip scope limit=checking pepper ip scope limit :=
  dependency_eq

end Trees

section Invariant

variable {pepper ip scope : String} {limit : ℕ} {sys : Checks}

/-- The check has incremented no counter. -/
def Absent (sys : Checks) (pid : ℕ) : Prop := ∀ key,(key,pid)∉sys.shared.incrs

/-- The only instant the check read. -/
def ReadOnly (sys : Checks) (pid : ℕ) (t : Instant) : Prop :=
  Read sys pid t ∧ ∀ t',Read sys pid t' → t'=t

/-- How far a check is. -/
inductive Stage (pepper ip scope : String) (limit : ℕ) (sys : Checks) (pid : ℕ) :
    Option (RateAction Unit) → Prop where
  /-- It has not read the clock. -/
  | waiting (hread : ∀ t,¬Read sys pid t) (habsent : Absent sys pid) :
      Stage pepper ip scope limit sys pid (some (checking pepper ip scope limit))
  /-- It is about to increment. -/
  | ready (t : Instant) (hread : ReadOnly sys pid t) (hpast : t≤ sys.shared.clock)
      (habsent : Absent sys pid) :
      Stage pepper ip scope limit sys pid (some (counting limit (keyAt pepper ip scope t)))
  /-- It has started a counter. -/
  | first (t : Instant) (hread : ReadOnly sys pid t) (hpast : t≤ sys.shared.clock)
      (hrank : (incrementers sys (keyAt pepper ip scope t))[0]?=some pid) :
      Stage pepper ip scope limit sys pid (some (expiring limit (keyAt pepper ip scope t)))
  /-- It has passed. -/
  | passed (t : Instant) (i : ℕ) (hread : ReadOnly sys pid t) (hlimit : i < limit)
      (hrank : (incrementers sys (keyAt pepper ip scope t))[i]?=some pid) :
      Stage pepper ip scope limit sys pid (some (.pure ()))
  /-- It has been rejected. -/
  | rejected (e : RateFailure) : Stage pepper ip scope limit sys pid (some (.raise e))
  /-- It has died. -/
  | dead (hrank : ∀ key i,(incrementers sys key)[i]?=some pid → i < limit) :
      Stage pepper ip scope limit sys pid none

/-- The counter of a minute counts its increments, and lives as long as a check
of that minute can come. -/
def Counter (sys : Checks) (key : RateKey) : Prop :=
  sys.shared.clock < seconds (60*key.bucket+61) →
    incrementers sys key=[] ∧ sys.shared.redis key=none ∨
      incrementers sys key≠[] ∧ ∃ expiry,
        sys.shared.redis key=some ⟨(incrementers sys key).length,expiry⟩ ∧
          ∀ instant,expiry=some instant → seconds (60*key.bucket+61)≤ instant

/-- What holds of checks under way. -/
structure Consistent (pepper ip scope : String) (limit : ℕ) (sys : Checks) : Prop where
  /-- Every check is at a stage. -/
  stage : ∀ pid p,sys.procs[pid]?=some p → Stage pepper ip scope limit sys pid p
  /-- Every counter of the client is right. -/
  counter : ∀ bucket,Counter sys ⟨scope,stableHmacDigest ip pepper,bucket⟩
  /-- No check increments twice. -/
  once : (sys.shared.incrs.map (·.2)).Nodup
  /-- Increments are by checks that have begun. -/
  begun : ∀ key pid,(key,pid)∈sys.shared.incrs → pid < sys.procs.length
  /-- So are clock readings. -/
  readers : ∀ pid t,Read sys pid t → pid < sys.procs.length

/-- Later increments follow the earlier ones. -/
theorem incrementers_append {sys' : Checks} {more : List (RateKey×ℕ)}
    (h : sys'.shared.incrs=sys.shared.incrs++more) (key : RateKey) :
    incrementers sys' key=incrementers sys key++(more.filter (·.1=key)).map (·.2) := by
  simp [incrementers,h,List.filter_append]

/-- A rank once taken is kept. -/
theorem rank_later {sys' : Checks} {more : List (RateKey×ℕ)}
    (h : sys'.shared.incrs=sys.shared.incrs++more) {key : RateKey} {i pid : ℕ}
    (hrank : (incrementers sys key)[i]?=some pid) : (incrementers sys' key)[i]?=some pid := by
  rw [incrementers_append h]
  exact List.getElem?_append_left (List.getElem?_eq_some_iff.mp hrank).1 ▸ hrank

/-- What other checks do leaves a check at its stage. -/
theorem Stage.later {sys' : Checks} {pid : ℕ} {p : Option (RateAction Unit)}
    {more : List (RateKey×ℕ)} (h : Stage pepper ip scope limit sys pid p)
    (hincrs : sys'.shared.incrs=sys.shared.incrs++more) (hothers : ∀ key,(key,pid)∉more)
    (hread : ∀ t,Read sys' pid t ↔ Read sys pid t) (hclock : sys.shared.clock≤ sys'.shared.clock) :
    Stage pepper ip scope limit sys' pid p := by
  have habsent : Absent sys pid → Absent sys' pid := by
    intro hno key hmem
    rw [hincrs] at hmem
    rcases List.mem_append.mp hmem with hold|hnew
    · exact hno key hold
    · exact hothers key hnew
  have honly : ∀ t,ReadOnly sys pid t → ReadOnly sys' pid t := fun t ht =>
    ⟨(hread t).mpr ht.1,fun t' ht' => ht.2 t' ((hread t').mp ht')⟩
  cases h with
  | waiting hno hnone => exact .waiting (fun t ht => hno t ((hread t).mp ht)) (habsent hnone)
  | ready t ht hpast hnone => exact .ready t (honly t ht) (Nat.le_trans hpast hclock) (habsent hnone)
  | first t ht hpast hrank =>
    exact .first t (honly t ht) (Nat.le_trans hpast hclock) (rank_later hincrs hrank)
  | passed t i ht hlimit hrank => exact .passed t i (honly t ht) hlimit (rank_later hincrs hrank)
  | rejected e => exact .rejected e
  | dead hrank =>
    refine .dead fun key i hi => ?_
    rw [incrementers_append hincrs] at hi
    by_cases hlt : i < (incrementers sys key).length
    · rw [List.getElem?_append_left hlt] at hi
      exact hrank key i hi
    · rw [List.getElem?_append_right (Nat.le_of_not_lt hlt)] at hi
      obtain ⟨⟨k,q⟩,hmem,rfl⟩ := List.mem_map.mp (List.mem_of_getElem? hi)
      exact (hothers k (List.mem_filter.mp hmem).1).elim

/-- What one effect of a check has to keep for the invariant to hold. -/
theorem Consistent.advance {sys' : Checks} {pid : ℕ} {p : RateAction Unit}
    {event : Event rateSignature} {more : List (RateKey×ℕ)}
    (h : Consistent pepper ip scope limit sys) (hlt : pid < sys.procs.length)
    (hprocs : sys'.procs=sys.procs.set pid (some p))
    (hhistory : sys'.history=event::sys.history) (hevent : event.pid=pid)
    (hincrs : sys'.shared.incrs=sys.shared.incrs++more)
    (hmore : more=[] ∨ Absent sys pid ∧ ∃ key,more=[(key,pid)])
    (hclock : sys.shared.clock≤ sys'.shared.clock)
    (hstage : Stage pepper ip scope limit sys' pid (some p))
    (hcounter : ∀ bucket,Counter sys' ⟨scope,stableHmacDigest ip pepper,bucket⟩) :
    Consistent pepper ip scope limit sys' := by
  have hown : ∀ key q,(key,q)∈more → q=pid := by
    intro key q hmem
    rcases hmore with rfl|⟨_,k,rfl⟩
    · exact (List.not_mem_nil hmem).elim
    · exact congrArg Prod.snd (List.mem_singleton.mp hmem)
  have hreads : ∀ q t,q≠pid → (Read sys' q t ↔ Read sys q t) := by
    intro q t hq
    unfold Read
    rw [hhistory,List.mem_cons]
    refine ⟨fun hmem => hmem.resolve_left fun heq => ?_,.inr⟩
    exact hq ((congrArg Event.pid heq).trans hevent)
  refine ⟨fun q o hq => ?_,hcounter,?_,fun key q hmem => ?_,fun q t hread => ?_⟩
  · rw [hprocs] at hq
    by_cases hqp : q=pid
    · subst hqp
      rw [List.getElem?_set_self hlt] at hq
      exact Option.some.inj hq ▸ hstage
    · rw [List.getElem?_set_ne (Ne.symm hqp)] at hq
      exact (h.stage q o hq).later hincrs (fun key hmem => hqp (hown key q hmem))
        (fun t => hreads q t hqp) hclock
  · rw [hincrs,List.map_append]
    rcases hmore with rfl|⟨habsent,key,rfl⟩
    · simpa using h.once
    · refine List.nodup_append.mpr ⟨h.once,List.nodup_singleton _,?_⟩
      intro q hq q' hq' heq
      obtain ⟨⟨k,other⟩,hmem,rfl⟩ := List.mem_map.mp hq
      rw [List.map_singleton,List.mem_singleton] at hq'
      obtain rfl : other=pid := heq.trans hq'
      exact habsent k hmem
  · rw [hprocs,List.length_set]
    rw [hincrs] at hmem
    rcases List.mem_append.mp hmem with hold|hnew
    · exact h.begun key q hold
    · exact hown key q hnew ▸ hlt
  · rw [hprocs,List.length_set]
    by_cases hqp : q=pid
    · exact hqp ▸ hlt
    · exact h.readers q t ((hreads q t hqp).mp hread)

/-- A counter that is not touched. -/
theorem Counter.later {sys' : Checks} {key : RateKey} (h : Counter sys key)
    (hclock : sys.shared.clock≤ sys'.shared.clock)
    (hincrs : incrementers sys' key=incrementers sys key)
    (hredis : sys'.shared.redis key=sys.shared.redis key) : Counter sys' key := by
  intro hearly
  rw [hincrs,hredis]
  exact h (Nat.lt_of_le_of_lt hclock hearly)

/-- In its minute and a second more, the counter is what it has counted. -/
theorem Counter.incremented {key : RateKey} {delay : ℕ} (h : Counter sys key)
    (hearly : sys.shared.clock+delay < seconds (60*key.bucket+61)) :
    (sys.shared.tick delay).incremented key=(incrementers sys key).length+1 ∧
      ∃ expiry,((sys.shared.tick delay).increment 0 key).redis key=
        some ⟨(incrementers sys key).length+1,expiry⟩ ∧
          ∀ instant,expiry=some instant → seconds (60*key.bucket+61)≤ instant := by
  rcases h (Nat.lt_of_le_of_lt (Nat.le_add_right _ _) hearly) with
    ⟨hnone,hmissing⟩|⟨_,expiry,hfound,hlong⟩
  · have hlookup : (sys.shared.tick delay).redis.lookup (sys.shared.tick delay).clock key=none :=
      Store.lookup_eq_none_of_eq_none hmissing _
    simp only [Shared.incremented,Shared.increment,hlookup,hnone]
    exact ⟨rfl,none,Store.assign_self _ _ _ _,nofun⟩
  · have hlive : (⟨(incrementers sys key).length,expiry⟩ : Entry ℕ).live
        (sys.shared.tick delay).clock=true := by
      cases expiry with
      | none => rfl
      | some instant => exact decide_eq_true (Nat.lt_of_lt_of_le hearly (hlong instant rfl))
    have hlookup : (sys.shared.tick delay).redis.lookup (sys.shared.tick delay).clock key=
        some (incrementers sys key).length := Store.lookup_eq_some.mpr ⟨_,hfound,hlive,rfl⟩
    simp only [Shared.incremented,Shared.increment,hlookup]
    refine ⟨rfl,expiry,?_,hlong⟩
    show Function.update _ _ _ _=_
    rw [Function.update_self]
    show (sys.shared.redis key).map _=_
    rw [hfound]
    rfl

/-- The check that takes part in an effect, from its remaining program. -/
theorem Consistent.running {pid : ℕ} {p : RateAction Unit}
    (h : Consistent pepper ip scope limit sys) (hp : sys.procs[pid]?=some (some p)) :
    pid < sys.procs.length ∧ Stage pepper ip scope limit sys pid (some p) :=
  ⟨(List.getElem?_eq_some_iff.mp hp).1,h.stage pid _ hp⟩

/-- A check reads the clock. -/
theorem Consistent.read {pid delay : ℕ} (h : Consistent pepper ip scope limit sys)
    (hp : sys.procs[pid]?=some (some (checking pepper ip scope limit))) 
    (hread : ∀ t,¬Read sys pid t) (habsent : Absent sys pid) :
    Consistent pepper ip scope limit ⟨sys.shared.tick delay,sys.procs.set pid
      (some (counting limit (keyAt pepper ip scope (sys.shared.tick delay).clock))),
        ⟨pid,RateEffect.time,(sys.shared.tick delay).clock⟩::sys.history⟩ := by
  have hclock : sys.shared.clock≤(sys.shared.tick delay).clock := Nat.le_add_right _ _
  refine h.advance (h.running hp).1 rfl rfl rfl (List.append_nil _).symm (.inl rfl)
    hclock ?_ fun bucket => (h.counter bucket).later hclock rfl rfl
  refine .ready _ ⟨List.mem_cons_self,fun t ht => ?_⟩ (Nat.le_refl _) fun key => ?_
  · rcases List.mem_cons.mp ht with heq|hold
    · cases heq
      rfl
    · exact (hread t hold).elim
  · exact habsent key

/-- A check whose command fails unperformed gives up. -/
theorem Consistent.fail {pid delay : ℕ} {p : RateAction Unit} {event : Event rateSignature}
    (h : Consistent pepper ip scope limit sys) (hp : sys.procs[pid]?=some (some p))
    (hevent : event.pid=pid) : Consistent pepper ip scope limit
      ⟨sys.shared.tick delay,sys.procs.set pid (some unavailable),event::sys.history⟩ := by
  have hclock : sys.shared.clock≤(sys.shared.tick delay).clock := Nat.le_add_right _ _
  exact h.advance (h.running hp).1 rfl rfl hevent (List.append_nil _).symm (.inl rfl)
    hclock (.rejected _) fun bucket => (h.counter bucket).later hclock rfl rfl

/-- An instant lies before the end of its minute. -/
theorem lt_minute (t : ℕ) : t+seconds 1 < seconds (60*(t/1000000/60)+61) := by
  unfold seconds
  omega

/-- An instant lies after the start of its minute. -/
theorem minute_le (t : ℕ) : seconds (60*(t/1000000/60))≤t := by
  unfold seconds
  omega

/-- An increment changes no other counter. -/
theorem increment_of_ne (s : Shared) (pid : ℕ) {key other : RateKey} (h : other≠key) :
    (s.increment pid key).redis other=s.redis other := by
  simp only [Shared.increment]
  cases s.redis.lookup s.clock key with
  | none => exact Store.assign_of_ne _ _ _ h
  | some count => exact Store.replace_of_ne _ _ h

/-- A check increments its counter within a second of its reading. -/
theorem Consistent.count {sys' : Checks} {pid delay : ℕ} {t : Instant} {p q : RateAction Unit}
    {event : Event rateSignature} (h : Consistent pepper ip scope limit sys)
    (hp : sys.procs[pid]?=some (some q)) (hread : ReadOnly sys pid t)
    (hpast : t≤ sys.shared.clock) (habsent : Absent sys pid)
    (hpunctual : sys.shared.clock+delay≤t+seconds 1)
    (hshared : sys'.shared=(sys.shared.tick delay).increment pid (keyAt pepper ip scope t))
    (hprocs : sys'.procs=sys.procs.set pid (some p))
    (hhistory : sys'.history=event::sys.history) (hevent : event.pid=pid)
    (hother : ∀ t',event≠⟨pid,RateEffect.time,t'⟩)
    (hcont : (∃ e,p=.raise e) ∨ p=if (incrementers sys (keyAt pepper ip scope t)).length=0 then
        expiring limit (keyAt pepper ip scope t)
      else verdict limit ((incrementers sys (keyAt pepper ip scope t)).length+1)) :
    Consistent pepper ip scope limit sys' := by
  have hincrs : sys'.shared.incrs=sys.shared.incrs++[(keyAt pepper ip scope t,pid)] := by
    rw [hshared]
    rfl
  have htime : sys'.shared.clock=sys.shared.clock+delay := by
    rw [hshared]
    rfl
  have hclock : sys.shared.clock≤ sys'.shared.clock := by
    rw [htime]
    exact Nat.le_add_right _ _
  have hmore : incrementers sys' (keyAt pepper ip scope t)=
      incrementers sys (keyAt pepper ip scope t)++[pid] := by
    rw [incrementers_append hincrs]
    simp
  refine h.advance (h.running hp).1 hprocs hhistory hevent hincrs (.inr ⟨habsent,_,rfl⟩) hclock ?_
    fun bucket => ?_
  · have hrank : (incrementers sys' (keyAt pepper ip scope t))[(incrementers sys
        (keyAt pepper ip scope t)).length]?=some pid := by
      rw [hmore]
      simp
    have honly : ReadOnly sys' pid t := by
      unfold ReadOnly Read
      rw [hhistory]
      refine ⟨List.mem_cons_of_mem _ hread.1,fun t' ht' => hread.2 t' ?_⟩
      exact (List.mem_cons.mp ht').resolve_left fun heq => hother t' heq.symm
    rcases hcont with ⟨e,rfl⟩|rfl
    · exact .rejected e
    · split
      · rename_i hzero
        rw [hzero] at hrank
        exact .first t honly (Nat.le_trans hpast hclock) hrank
      · unfold verdict
        split
        · exact .rejected _
        · rename_i hwithin
          exact .passed t _ honly (Nat.lt_of_succ_le (Nat.le_of_not_lt hwithin)) hrank
  · by_cases hbucket : bucket=t/1000000/60
    · subst hbucket
      have hcounter : Counter sys (keyAt pepper ip scope t) := h.counter (t/1000000/60)
      change Counter sys' (keyAt pepper ip scope t)
      intro _
      obtain ⟨_,expiry,hredis,hlong⟩ := hcounter.incremented
        (Nat.lt_of_le_of_lt hpunctual (lt_minute t))
      refine .inr ⟨?_,expiry,?_,hlong⟩
      · rw [hmore]
        exact List.append_ne_nil_of_right_ne_nil _ (List.cons_ne_nil _ _)
      · rw [hshared,hmore,List.length_append]
        exact hredis
    · have hne : (⟨scope,stableHmacDigest ip pepper,bucket⟩ : RateKey)≠
          keyAt pepper ip scope t := fun heq => hbucket (congrArg RateKey.bucket heq)
      refine (h.counter bucket).later hclock ?_ ?_
      · rw [incrementers_append hincrs]
        simp [Ne.symm hne]
      · rw [hshared]
        exact increment_of_ne _ _ hne

/-- A check gives its counter 61 seconds to live. -/
theorem Consistent.settle {sys' : Checks} {pid delay : ℕ} {t : Instant} {p : RateAction Unit}
    {event : Event rateSignature} (h : Consistent pepper ip scope limit sys)
    (hlimit : 1≤limit)
    (hp : sys.procs[pid]?=some (some (expiring limit (keyAt pepper ip scope t))))
    (hread : ReadOnly sys pid t) (hpast : t≤ sys.shared.clock)
    (hrank : (incrementers sys (keyAt pepper ip scope t))[0]?=some pid)
    (hshared : sys'.shared=(sys.shared.tick delay).retime (keyAt pepper ip scope t) 61)
    (hprocs : sys'.procs=sys.procs.set pid (some p))
    (hhistory : sys'.history=event::sys.history) (hevent : event.pid=pid)
    (hother : ∀ t',event≠⟨pid,RateEffect.time,t'⟩)
    (hcont : (∃ e,p=.raise e) ∨ p=verdict limit 1) :
    Consistent pepper ip scope limit sys' := by
  have hincrs : sys'.shared.incrs=sys.shared.incrs++[] := by
    rw [hshared,List.append_nil]
    rfl
  have hsame : ∀ key,incrementers sys' key=incrementers sys key := by
    intro key
    rw [incrementers_append hincrs]
    simp
  have htime : sys'.shared.clock=sys.shared.clock+delay := by
    rw [hshared]
    rfl
  have hclock : sys.shared.clock≤ sys'.shared.clock := by
    rw [htime]
    exact Nat.le_add_right _ _
  refine h.advance (h.running hp).1 hprocs hhistory hevent hincrs (.inl rfl) hclock ?_
    fun bucket => ?_
  · rcases hcont with ⟨e,rfl⟩|rfl
    · exact .rejected e
    · have honly : ReadOnly sys' pid t := by
        unfold ReadOnly Read
        rw [hhistory]
        refine ⟨List.mem_cons_of_mem _ hread.1,fun t' ht' => hread.2 t' ?_⟩
        exact (List.mem_cons.mp ht').resolve_left fun heq => hother t' heq.symm
      rw [verdict,if_neg (Nat.not_lt_of_le hlimit)]
      exact .passed t 0 honly hlimit (hsame _ ▸ hrank)
  · by_cases hbucket : bucket=t/1000000/60
    · subst hbucket
      have hcounter : Counter sys (keyAt pepper ip scope t) := h.counter (t/1000000/60)
      change Counter sys' (keyAt pepper ip scope t)
      intro hearly
      rw [htime] at hearly
      rcases hcounter (Nat.lt_of_le_of_lt (Nat.le_add_right _ _) hearly) with
        ⟨hnone,_⟩|⟨hsome,expiry,hfound,hlong⟩
      · rw [hnone] at hrank
        cases hrank
      · have hlive : (⟨(incrementers sys (keyAt pepper ip scope t)).length,expiry⟩ :
            Entry ℕ).live (sys.shared.clock+delay)=true := by
          cases expiry with
          | none => rfl
          | some instant => exact decide_eq_true (Nat.lt_of_lt_of_le hearly (hlong instant rfl))
        refine .inr ⟨?_,some (sys.shared.clock+delay+seconds 61),?_,fun instant hinstant => ?_⟩
        · rw [hsame]
          exact hsome
        · rw [hsame,hshared]
          show sys.shared.redis.retime (sys.shared.clock+delay) (keyAt pepper ip scope t)
            (sys.shared.clock+delay+seconds 61) (keyAt pepper ip scope t)=_
          rw [Store.retime,Function.update_self,hfound,Option.filter_some,if_pos hlive]
          rfl
        · obtain rfl := Option.some.inj hinstant
          have hstart := minute_le t
          have hminute : seconds (60*(keyAt pepper ip scope t).bucket+61)=
              seconds (60*(t/1000000/60))+seconds 61 := Nat.mul_add _ _ _
          rw [hminute]
          exact Nat.add_le_add_right (Nat.le_trans hstart
            (Nat.le_trans hpast (Nat.le_add_right _ _))) _
    · have hne : (⟨scope,stableHmacDigest ip pepper,bucket⟩ : RateKey)≠
          keyAt pepper ip scope t := fun heq => hbucket (congrArg RateKey.bucket heq)
      refine (h.counter bucket).later hclock (hsame _) ?_
      rw [hshared]
      exact Store.retime_of_ne _ _ _ hne

/-- A check with a rank has incremented. -/
theorem mem_of_rank {key : RateKey} {i pid : ℕ} (h : (incrementers sys key)[i]?=some pid) :
    (key,pid)∈sys.shared.incrs := by
  obtain ⟨⟨k,q⟩,hmem,rfl⟩ := List.mem_map.mp (List.mem_of_getElem? h)
  obtain ⟨hin,hkey⟩ := List.mem_filter.mp hmem
  obtain rfl : k=key := of_decide_eq_true hkey
  exact hin

/-- A check has one rank. -/
theorem rank_unique (honce : (sys.shared.incrs.map (·.2)).Nodup) {key key' : RateKey}
    {i j pid : ℕ} (hi : (incrementers sys key)[i]?=some pid)
    (hj : (incrementers sys key')[j]?=some pid) : key=key' ∧ i=j := by
  have hsame : key=key' := congrArg Prod.fst
    (List.inj_on_of_nodup_map honce (mem_of_rank hi) (mem_of_rank hj) rfl)
  subst hsame
  have hnodup : (incrementers sys key).Nodup := honce.sublist (List.filter_sublist.map _)
  exact ⟨rfl,(List.getElem?_inj (List.getElem?_eq_some_iff.mp hi).1 hnodup).mp (hi.trans hj.symm)⟩

/-- A check that is still running is within the limit, if it has a rank. -/
theorem Consistent.rank_lt {pid : ℕ} {op : RateEffect}
    {k : rateSignature.Reply op → RateAction Unit} (hlimit : 1≤limit)
    (h : Consistent pepper ip scope limit sys)
    (hp : sys.procs[pid]?=some (some (.call (σ := rateSignature) op k))) :
    ∀ key i,(incrementers sys key)[i]?=some pid → i < limit := by
  intro key i hi
  have hstage := h.stage pid _ hp
  generalize hq : some (Program.call (σ := rateSignature) op k)=q at hstage
  cases hstage with
  | waiting hread habsent => exact (habsent key (mem_of_rank hi)).elim
  | ready t hread hpast habsent => exact (habsent key (mem_of_rank hi)).elim
  | first t hread hpast hrank =>
    obtain ⟨_,rfl⟩ := rank_unique h.once hrank hi
    exact hlimit
  | passed t j hread hlt hrank => cases hq
  | rejected e => cases hq
  | dead hrank => cases hq

/-- An increment is answered. -/
theorem fire_incr_ne (pid choice : ℕ) (key : RateKey) (s s' : Shared) :
    Shared.fire pid (.incr key) choice s≠some (none,s') := by
  simp only [Shared.fire]
  split <;> nofun

/-- An expiry is answered. -/
theorem fire_expire_ne (pid choice expiry : ℕ) (key : RateKey) (s s' : Shared) :
    Shared.fire pid (.expire key expiry) choice s≠some (none,s') := by
  simp only [Shared.fire]
  split <;> nofun

/-- The endings of an increment. -/
theorem fire_incr {pid choice : ℕ} {key : RateKey} {s s' : Shared} {r : Option ℕ}
    (h : Shared.fire pid (.incr key) choice s=some (some r,s')) :
    r=some ((s.tick (choice/3)).incremented key) ∧ s'=(s.tick (choice/3)).increment pid key ∨
      r=none ∧ s'=s.tick (choice/3) ∨
      r=none ∧ s'=(s.tick (choice/3)).increment pid key := by
  simp only [Shared.fire] at h
  split at h
  · cases h
    exact .inl ⟨rfl,rfl⟩
  · cases h
    exact .inr (.inl ⟨rfl,rfl⟩)
  · cases h
    exact .inr (.inr ⟨rfl,rfl⟩)

/-- The endings of an expiry. -/
theorem fire_expire (pid : ℕ) {choice expiry : ℕ} {key : RateKey} {s s' : Shared} {r : Option Unit}
    (h : Shared.fire pid (.expire key expiry) choice s=some (some r,s')) :
    r=some () ∧ s'=(s.tick (choice/3)).retime key expiry ∨
      r=none ∧ s'=s.tick (choice/3) ∨
      r=none ∧ s'=(s.tick (choice/3)).retime key expiry := by
  simp only [Shared.fire] at h
  split at h
  · cases h
    exact .inl ⟨rfl,rfl⟩
  · cases h
    exact .inr (.inl ⟨rfl,rfl⟩)
  · cases h
    exact .inr (.inr ⟨rfl,rfl⟩)

/-- A check performs an effect. -/
theorem Consistent.effect {sys' : Checks} {pid choice : ℕ}
    (hlimit : 1≤limit) (h : Consistent pepper ip scope limit sys)
    (hmove : Punctual pepper ip scope limit sys (.effect pid choice))
    (hstep : rateMachine.step sys (.effect pid choice)=some sys') :
    Consistent pepper ip scope limit sys' := by
  obtain ⟨op,k,hp,hfire⟩ := Machine.step_effect hstep
  have hstage := h.stage pid _ hp
  generalize hq : some (Program.call op k)=q at hstage
  cases hstage with
  | waiting hread habsent =>
    unfold checking at hq
    cases hq
    obtain ⟨_,hfire,_⟩|⟨r,s,hfire,rfl⟩ := hfire
    · cases hfire
    · cases hfire
      exact h.read hp hread habsent
  | ready t hread hpast habsent =>
    unfold counting at hq
    cases hq
    have hpunctual : sys.shared.clock+choice/3≤t+seconds 1 := hmove _ _ hp t hread.1
    obtain ⟨hcounted,_⟩ := (show Counter sys (keyAt pepper ip scope t) from
      h.counter _).incremented (Nat.lt_of_le_of_lt hpunctual (lt_minute t))
    obtain ⟨s,hnone,_⟩|⟨r,s,hsome,rfl⟩ := hfire
    · exact absurd hnone (fire_incr_ne pid choice _ sys.shared s)
    · rcases fire_incr hsome with ⟨rfl,rfl⟩|⟨rfl,rfl⟩|⟨rfl,rfl⟩
      · refine h.count hp hread hpast habsent hpunctual rfl rfl rfl rfl nofun (.inr ?_)
        rw [hcounted]
        simp only [Nat.add_eq_right]
      · exact h.fail hp rfl
      · exact h.count hp hread hpast habsent hpunctual rfl rfl rfl rfl nofun (.inl ⟨_,rfl⟩)
  | first t hread hpast hrank =>
    unfold expiring at hq
    cases hq
    obtain ⟨s,hnone,_⟩|⟨r,s,hsome,rfl⟩ := hfire
    · exact absurd hnone (fire_expire_ne pid choice 61 _ sys.shared s)
    · rcases fire_expire pid hsome with ⟨rfl,rfl⟩|⟨rfl,rfl⟩|⟨rfl,rfl⟩
      · exact h.settle hlimit hp hread hpast hrank rfl rfl rfl rfl nofun (.inr rfl)
      · exact h.fail hp rfl
      · exact h.settle hlimit hp hread hpast hrank rfl rfl rfl rfl nofun (.inl ⟨_,rfl⟩)
  | passed t i hread hlt hrank => cases hq
  | rejected e => cases hq
  | dead hrank => cases hq

/-- A check that dies leaves the others alone. -/
theorem Consistent.kill {pid : ℕ} (h : Consistent pepper ip scope limit sys)
    (hrank : ∀ key i,(incrementers sys key)[i]?=some pid → i < limit)
    (hlt : pid < sys.procs.length) :
    Consistent pepper ip scope limit {sys with procs := sys.procs.set pid none} := by
  refine ⟨fun q p hq => ?_,h.counter,h.once,fun key q hmem => ?_,fun q t hread => ?_⟩
  · by_cases hqp : q=pid
    · subst hqp
      rw [List.getElem?_set_self hlt] at hq
      exact Option.some.inj hq ▸ .dead hrank
    · rw [List.getElem?_set_ne (Ne.symm hqp)] at hq
      exact (h.stage q p hq).later (List.append_nil _).symm (by simp) (fun t => Iff.rfl)
        (Nat.le_refl _)
  · rw [List.length_set]
    exact h.begun key q hmem
  · rw [List.length_set]
    exact h.readers q t hread

/-- A check begins. -/
theorem Consistent.spawn {p : RateAction Unit} (h : Consistent pepper ip scope limit sys)
    (hp : p=checking pepper ip scope limit) :
    Consistent pepper ip scope limit {sys with procs := sys.procs++[some p]} := by
  refine ⟨fun q o hq => ?_,h.counter,h.once,fun key q hmem => ?_,fun q t hread => ?_⟩
  · by_cases hlt : q < sys.procs.length
    · rw [List.getElem?_append_left hlt] at hq
      exact (h.stage q o hq).later (List.append_nil _).symm (by simp) (fun t => Iff.rfl)
        (Nat.le_refl _)
    · rw [List.getElem?_append_right (Nat.le_of_not_lt hlt)] at hq
      obtain rfl := List.mem_singleton.mp (List.mem_of_getElem? hq)
      subst hp
      refine .waiting (fun t hread => hlt (h.readers q t hread)) fun key hmem => ?_
      exact hlt (h.begun key q hmem)
  · rw [List.length_append]
    exact Nat.lt_add_right _ (h.begun key q hmem)
  · rw [List.length_append]
    exact Nat.lt_add_right _ (h.readers q t hread)

/-- Every check of the three services is the same tree. -/
theorem isCheck_eq {p : RateAction Unit} (h : IsCheck pepper ip scope limit p) :
    p=checking pepper ip scope limit := by
  rcases h with rfl|rfl|rfl
  · exact check_eq
  · exact dependency_eq
  · exact dependency_eq

/-- One move of punctual checks keeps the invariant. -/
theorem Consistent.step {sys' : Checks} {mv : Move rateSignature RateFailure Unit}
    (hlimit : 1≤limit) (h : Consistent pepper ip scope limit sys)
    (hmove : Punctual pepper ip scope limit sys mv) (hstep : rateMachine.step sys mv=some sys') :
    Consistent pepper ip scope limit sys' := by
  cases mv with
  | effect pid choice => exact h.effect hlimit hmove hstep
  | finish pid =>
    simp only [Machine.step] at hstep
    split at hstep
    · cases hstep
      exact h
    · cases hstep
  | kill pid =>
    simp only [Machine.step] at hstep
    split at hstep
    · rename_i op k hp
      cases hstep
      exact h.kill (h.rank_lt hlimit hp) (List.getElem?_eq_some_iff.mp hp).1
    · cases hstep
  | spawn p =>
    cases hstep
    exact h.spawn (isCheck_eq hmove)

end Invariant

section Runs

variable {pepper ip scope : String} {limit : ℕ}

/-- Without checks the invariant holds. -/
theorem Idle.consistent {sys : Checks} (h : Idle pepper ip scope sys) :
    Consistent pepper ip scope limit sys := by
  obtain ⟨hprocs,hhistory,hincrs,hredis⟩ := h
  refine ⟨fun pid p hp => ?_,fun bucket _ => .inl ⟨?_,hredis bucket⟩,?_,fun key pid hmem => ?_,
    fun pid t hread => ?_⟩
  · rw [hprocs] at hp
    cases hp
  · rw [incrementers,hincrs]
    rfl
  · rw [hincrs]
    exact List.nodup_nil
  · rw [hincrs] at hmem
    cases hmem
  · unfold Read at hread
    rw [hhistory] at hread
    cases hread

/-- The invariant holds in every run of punctual checks. -/
theorem consistent_of_reaches (hlimit : 1≤limit) {start sys : Checks}
    (hidle : Idle pepper ip scope start)
    (hrun : rateMachine.Reaches (Punctual pepper ip scope limit) start sys) :
    Consistent pepper ip scope limit sys := by
  induction hrun with
  | refl => exact hidle.consistent
  | step mv _ hmove hstep ih => exact ih.step hlimit hmove hstep

/-- A check that has passed is at the stage of one. -/
theorem Consistent.rank_of_passed {sys : Checks} {pid : ℕ}
    (h : Consistent pepper ip scope limit sys) (hpassed : Passed sys pid) :
    ∃ t,ReadOnly sys pid t ∧ pid∈(incrementers sys (keyAt pepper ip scope t)).take limit := by
  have hp : sys.procs[pid]?=some (some (.pure ())) := by
    unfold Passed System.outcome at hpassed
    split at hpassed
    · rename_i hp
      exact hp
    · cases hpassed
    · cases hpassed
  have hstage := h.stage pid _ hp
  generalize hq : some (Program.pure ())=q at hstage
  cases hstage with
  | passed t i hread hlt hrank =>
    refine ⟨t,hread,List.mem_of_getElem? (i := i) ?_⟩
    rw [List.getElem?_take_of_lt hlt]
    exact hrank
  | _ => cases hq

/-- A check that came too late has been rejected. -/
theorem Consistent.rejected_of_late {sys : Checks} {pid : ℕ} {key : RateKey}
    (h : Consistent pepper ip scope limit sys) (hlimit : 1≤limit)
    (hlate : pid∈(incrementers sys key).drop limit) : Rejected sys pid := by
  obtain ⟨j,hj⟩ := List.getElem?_of_mem hlate
  rw [List.getElem?_drop] at hj
  have hlt : pid < sys.procs.length := h.begun key pid (mem_of_rank hj)
  have hp := List.getElem?_eq_getElem hlt
  have hstage := h.stage pid _ hp
  generalize hq : sys.procs[pid]=q at hstage hp
  cases hstage with
  | waiting hread habsent => exact (habsent key (mem_of_rank hj)).elim
  | ready t hread hpast habsent => exact (habsent key (mem_of_rank hj)).elim
  | first t hread hpast hrank =>
    obtain ⟨_,hzero⟩ := rank_unique h.once hrank hj
    omega
  | passed t i hread hi hrank =>
    obtain ⟨_,hsame⟩ := rank_unique h.once hrank hj
    omega
  | rejected e =>
    refine ⟨e,?_⟩
    simp only [System.outcome,hp]
  | dead hrank => exact absurd (hrank key _ hj) (by omega)

/-- A span of sixty seconds meets at most two minutes. -/
theorem minute_of_span {a t : ℕ} (hle : a≤t) (hlt : t < a+seconds 60) :
    t/1000000/60=a/1000000/60 ∨ t/1000000/60=a/1000000/60+1 := by
  unfold seconds at hlt
  omega

/-- In every run of punctual checks of one client and scope, the checks that
pass are among the first of their minute's key to increment it, the others are
rejected, and a span of sixty seconds of clock readings has at most twice the
limit of passing checks. -/
theorem rate_limit_exact (pepper ip scope : String) (limit : ℕ) (hlimit : 1≤limit)
    {start sys : Checks} (hidle : Idle pepper ip scope start)
    (hrun : rateMachine.Reaches (Punctual pepper ip scope limit) start sys) :
    (∀ pid,Passed sys pid → ∃ t,ReadOnly sys pid t ∧
      pid∈(incrementers sys (keyAt pepper ip scope t)).take limit) ∧
    (∀ bucket,∀ pid∈(incrementers sys ⟨scope,stableHmacDigest ip pepper,bucket⟩).drop limit,
      Rejected sys pid) ∧
    ∀ (a : Instant) (pids : List ℕ),pids.Nodup →
      (∀ pid∈pids,Passed sys pid ∧ ∃ t,Read sys pid t ∧ a≤t ∧ t < a+seconds 60) →
        pids.length≤2*limit := by
  have h := consistent_of_reaches hlimit hidle hrun
  refine ⟨fun pid => h.rank_of_passed,fun bucket pid => h.rejected_of_late hlimit,?_⟩
  intro a pids hnodup hpids
  let minute := fun bucket : ℕ =>
    (incrementers sys ⟨scope,stableHmacDigest ip pepper,bucket⟩).take limit
  have hsub : pids⊆minute (a/1000000/60)++minute (a/1000000/60+1) := by
    intro pid hpid
    obtain ⟨hpassed,t,hread,hle,hlt⟩ := hpids pid hpid
    obtain ⟨t',honly,hmem⟩ := h.rank_of_passed hpassed
    obtain rfl := honly.2 t hread
    have hminute : pid∈minute (t/1000000/60) := hmem
    rcases minute_of_span hle hlt with hfirst|hsecond
    · exact List.mem_append_left _ (hfirst ▸ hminute)
    · exact List.mem_append_right _ (hsecond ▸ hminute)
  have hshort : ∀ bucket,(minute bucket).length≤limit := fun bucket => List.length_take_le _ _
  calc pids.length≤(minute (a/1000000/60)++minute (a/1000000/60+1)).length :=
        (List.subperm_of_subset hnodup hsub).length_le
    _=(minute (a/1000000/60)).length+(minute (a/1000000/60+1)).length := List.length_append
    _≤limit+limit := Nat.add_le_add (hshort _) (hshort _)
    _=2*limit := (Nat.two_mul limit).symm

/-- A server without checks. -/
def sampleChecks : Checks := ⟨⟨0,Store.empty,[]⟩,[],[]⟩

/-- Of two overlapping checks with a limit of one, the first to increment
passes and the other one is rejected. -/
theorem rate_limit_exact_alone : ∃ sys,
    rateMachine.Reaches (Punctual "pepper" "10.0.0.1" "login" 1) sampleChecks sys ∧
      Passed sys 0 ∧ (∃ t,ReadOnly sys 0 t ∧
        0∈(incrementers sys (keyAt "pepper" "10.0.0.1" "login" t)).take 1) ∧
      incrementers sys (keyAt "pepper" "10.0.0.1" "login" 0)=[0,1] ∧ Rejected sys 1 := by
  have hrun : ∃ sys,rateMachine.Reaches (Punctual "pepper" "10.0.0.1" "login" 1) sampleChecks sys ∧
      Passed sys 0 ∧ incrementers sys (keyAt "pepper" "10.0.0.1" "login" 0)=[0,1] := by
    -- Both read the same clock.
    have hread : ∀ {pid : ℕ} {t : Instant},(⟨pid,RateEffect.time,t⟩ : Event rateSignature)∈
        [⟨1,RateEffect.time,(0 : Instant)⟩,⟨0,RateEffect.time,(0 : Instant)⟩] → t=0 := by
      intro pid t ht
      rcases List.mem_pair.mp ht with ht|ht
      · cases ht
        rfl
      · cases ht
        rfl
    refine ⟨_,.step (.effect 0 0) (.step (.effect 1 0) (.step (.effect 0 0) (.step (.effect 1 0)
      (.step (.effect 0 0)
        (.step (.spawn (ApiGateway.check "pepper" "10.0.0.1" "login" 1))
          (.step (.spawn (ApiGateway.check "pepper" "10.0.0.1" "login" 1)) .refl (.inl rfl) rfl)
          (.inl rfl) rfl)
        ?_ rfl) ?_ rfl) ?_ rfl) ?_ rfl) ?_ rfl,rfl,rfl⟩
    · intro key k hp
      cases hp
    · intro key k hp
      cases hp
    · intro key k _ t ht
      obtain rfl : t=0 := hread ht
      decide
    · intro key k _ t ht
      obtain rfl : t=0 := hread ((List.mem_cons.mp ht).resolve_left (by rintro ⟨⟩))
      decide
    · intro key k hp
      cases hp
  obtain ⟨sys,hreaches,hpassed,horder⟩ := hrun
  obtain ⟨hfirst,hlate,-⟩ := rate_limit_exact "pepper" "10.0.0.1" "login" 1 (by decide)
    ⟨rfl,rfl,rfl,fun _ => rfl⟩ hreaches
  refine ⟨sys,hreaches,hpassed,hfirst 0 hpassed,horder,hlate 0 1 ?_⟩
  show 1∈(incrementers sys (keyAt "pepper" "10.0.0.1" "login" 0)).drop 1
  rw [horder]
  exact List.mem_singleton_self 1

end Runs

end BackendPlatform.RateLimits
