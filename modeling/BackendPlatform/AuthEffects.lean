import BackendPlatform.AuthRecords
import BackendPlatform.ExpiringStore
import BackendPlatform.InterleavedRuns
import BackendPlatform.RowLocking

/-!
# Effects of the authentication service

An operation reads the clock, draws randomness, signs tokens, talks to Redis
and the mail server and sends statements to the database. Observations are
ghost effects: they record a decision for statements about runs and change
nothing else. The environment answers everything but the statements; the
database answers those alone, for one request after another, or with row
locks, for concurrent requests.
-/

set_option autoImplicit false

namespace BackendPlatform.AuthEffects

open ProgramTrees ExpiringStore InterleavedRuns TransactionalTables RowLocking AuthRecords

/-- The JSON payload of a login challenge. -/
structure LoginChallenge where
  /-- `user_id`. -/
  userId : Option String
  /-- `ip_fingerprint`. -/
  ipFingerprint : Option (Hmac String)
deriving DecidableEq

/-- Redis keys of the service. -/
inductive RedisKey where
  /-- `access_session_revoked:{session_id}`. -/
  | accessSessionRevoked (sessionId : String)
  /-- `brute_force:{scope}:{identifier}:fail`. -/
  | bruteForceFail (scope : Scope) (identifier : Hmac String)
  /-- `brute_force:{scope}:{identifier}:lock`. -/
  | bruteForceLock (scope : Scope) (identifier : Hmac String)
  /-- `login_challenge:{challenge_id}`. -/
  | loginChallenge (challengeId : String)
deriving DecidableEq

/-- Redis values of the service. -/
inductive RedisValue where
  /-- A plain text. -/
  | text (value : String)
  /-- A counter. -/
  | number (value : ℕ)
  /-- An encoded challenge. -/
  | challenge (value : LoginChallenge)
deriving DecidableEq

/-- Decisions recorded for statements about runs. -/
inductive Observation where
  /-- A second-factor code was checked and rejected. -/
  | codeRejected (userId : UUID)
  /-- A TOTP code was accepted for a timecode of a secret. -/
  | totpAccepted (userId : UUID) (secret : TotpSecret) (timecode : ℕ)
  /-- A backup code row was accepted. -/
  | backupCodeAccepted (userId codeId : UUID)
deriving DecidableEq

/-- How the mail provider ended. -/
inductive Delivery where
  /-- It returned a value; only `True` means sent. -/
  | returned (sent : Option Bool)
  /-- It raised `SMTPException`, `OSError` or `RuntimeError`. -/
  | expectedError
  /-- It raised another `Exception`. -/
  | unexpectedError
  /-- It was interrupted by what is no `Exception`: a cancellation. -/
  | interrupted
deriving DecidableEq

/-- Effects outside the database. -/
inductive External where
  /-- The current time. -/
  | now
  /-- A value never drawn before, for identifiers, salts and secrets. -/
  | draw
  /-- A random number below a bound. -/
  | randbelow (bound : ℕ)
  /-- Sign claims with the key of the service. -/
  | sign (payload : TokenPayload)
  /-- `GET`. -/
  | redisGet (key : RedisKey)
  /-- `SET` with an expiry in seconds. -/
  | redisSet (key : RedisKey) (value : RedisValue) (expiry : ℕ)
  /-- `DEL`. -/
  | redisDelete (keys : List RedisKey)
  /-- `EXISTS`. -/
  | redisExists (key : RedisKey)
  /-- `TTL`. -/
  | redisTtl (key : RedisKey)
  /-- `INCR`. -/
  | redisIncr (key : RedisKey)
  /-- `EXPIRE` with an expiry in seconds. -/
  | redisExpire (key : RedisKey) (expiry : ℕ)
  /-- Send a message. -/
  | sendEmail (toEmail subject body : String)
  /-- Record a decision. -/
  | observe (observation : Observation)

/-- What each of them returns. An `INCR` of a text fails. -/
abbrev External.Reply : External → Type
  | .now => Instant
  | .draw => ℕ
  | .randbelow _ => ℕ
  | .sign _ => RawToken
  | .redisGet _ => Option RedisValue
  | .redisSet _ _ _ => Unit
  | .redisDelete _ => Unit
  | .redisExists _ => Bool
  | .redisTtl _ => ℤ
  | .redisIncr _ => Option ℕ
  | .redisExpire _ _ => Unit
  | .sendEmail _ _ _ => Delivery
  | .observe _ => Unit

/-- Redis, the clock, the supply of unused values, the claims signed so far
and the recorded decisions. -/
structure Environment where
  /-- Redis. -/
  redis : Store RedisKey RedisValue
  /-- The common clock. -/
  clock : Instant
  /-- Every draw so far is below it. -/
  draws : ℕ
  /-- Signed claims, latest first. -/
  issued : List TokenPayload
  /-- Recorded decisions with their instants, latest first. -/
  log : List (Instant×Observation)

namespace Environment

/-- Time passes. -/
def tick (env : Environment) (delay : ℕ) : Environment := {env with clock := env.clock+delay}

/-- Another Redis content. -/
def withRedis (env : Environment) (redis : Store RedisKey RedisValue) : Environment :=
  {env with redis := redis}

/-- Remaining seconds of a key, rounded, or the codes of a missing key and of
a key without expiry. -/
def remaining (env : Environment) (key : RedisKey) : ℤ :=
  match (env.redis key).filter (·.live env.clock) with
  | none => -2
  | some entry =>
    match entry.expiresAt with
    | none => -1
    | some instant => ((instant-env.clock+500000)/1000000 : ℕ)

/-- The counter after an increment; a missing key counts from zero. -/
def incremented (env : Environment) (key : RedisKey) : Option ℕ :=
  match env.redis.lookup env.clock key with
  | none => some 1
  | some (.number n) => some (n+1)
  | some _ => none

/-- Redis after an increment. A new counter has no expiry. -/
def increment (env : Environment) (key : RedisKey) : Store RedisKey RedisValue :=
  match env.redis.lookup env.clock key with
  | none => env.redis.assign key (.number 1) none
  | some (.number n) => env.redis.replace key (.number (n+1))
  | some _ => env.redis

/-- How the mail provider ends, as one of six choices. -/
def delivery (choice : ℕ) : Delivery :=
  match choice with
  | 0 => .returned (some true)
  | 1 => .returned (some false)
  | 2 => .returned none
  | 3 => .expectedError
  | 4 => .unexpectedError
  | _ => .interrupted

/-- Answer an effect. The choice is the time that passes before a clock or
Redis access, the random number or the outcome of a delivery. -/
def perform : (op : External) → ℕ → Environment → op.Reply×Environment
  | .now,choice,env => (env.clock+choice,env.tick choice)
  | .draw,_,env => (env.draws,{env with draws := env.draws+1})
  | .randbelow bound,choice,env => (choice%bound,env)
  | .sign payload,_,env => (.signed payload 0,{env with issued := payload::env.issued})
  | .redisGet key,choice,env => (env.redis.lookup (env.clock+choice) key,env.tick choice)
  | .redisSet key value expiry,choice,env =>
    ((),(env.tick choice).withRedis
      (env.redis.assign key value (some (env.clock+choice+seconds expiry))))
  | .redisDelete keys,choice,env => ((),(env.tick choice).withRedis (env.redis.removeAll keys))
  | .redisExists key,choice,env =>
    ((env.redis.lookup (env.clock+choice) key).isSome,env.tick choice)
  | .redisTtl key,choice,env => ((env.tick choice).remaining key,env.tick choice)
  | .redisIncr key,choice,env =>
    ((env.tick choice).incremented key,
      (env.tick choice).withRedis ((env.tick choice).increment key))
  | .redisExpire key expiry,choice,env =>
    ((),(env.tick choice).withRedis
      (env.redis.retime (env.clock+choice) key (env.clock+choice+seconds expiry)))
  | .sendEmail _ _ _,choice,env => (delivery choice,env)
  | .observe observation,_,env => ((),{env with log := (env.clock,observation)::env.log})

/-- An increment changes no other key. -/
theorem increment_of_ne (env : Environment) {key other : RedisKey} (h : other≠key) :
    env.increment key other=env.redis other := by
  unfold increment
  cases env.redis.lookup env.clock key with
  | none => exact Store.assign_of_ne _ _ _ h
  | some value =>
    cases value with
    | number n => exact Store.replace_of_ne _ _ h
    | _ => rfl

/-- Time never goes back. -/
theorem clock_le_perform (op : External) (choice : ℕ) (env : Environment) :
    env.clock≤(env.perform op choice).2.clock := by
  cases op <;> simp [perform,tick,withRedis]

/-- Values once drawn stay drawn. -/
theorem draws_le_perform (op : External) (choice : ℕ) (env : Environment) :
    env.draws≤(env.perform op choice).2.draws := by
  cases op <;> simp [perform,tick,withRedis]

end Environment

/-- All effects of the service. -/
inductive Effect where
  /-- An effect outside the database. -/
  | external (op : External)
  /-- A statement. -/
  | sql (stmt : Statement authSchema)

/-- What an effect returns. -/
abbrev Effect.Reply : Effect → Type
  | .external op => op.Reply
  | .sql stmt => stmt.Reply

/-- The effect signature of the service. -/
abbrev authSignature : Signature := ⟨Effect,Effect.Reply⟩

/-- An operation of the service. -/
abbrev Action (α : Type) := Program authSignature Failure α

section Wrappers

/-- One effect outside the database. -/
def external (op : External) : Action op.Reply := .call (Effect.external op) .pure

/-- One statement. -/
def sql (stmt : Statement authSchema) : Action stmt.Reply := .call (Effect.sql stmt) .pure

/-- `datetime.now(tz=UTC)` and `time.time()`. -/
def utcNow : Action Instant := external .now

/-- A value never drawn before. -/
def draw : Action ℕ := external .draw

/-- `uuid4()`. -/
def uuid4 : Action UUID := do return ⟨←draw⟩

/-- `redis.get`. -/
def redisGet (key : RedisKey) : Action (Option RedisValue) := external (.redisGet key)

/-- `redis.set` with `ex`; the server rejects a zero expiry. -/
def redisSet (key : RedisKey) (value : RedisValue) (expiry : ℕ) : Action Unit :=
  if expiry=0 then throw .responseError else external (.redisSet key value expiry)

/-- `redis.delete`. -/
def redisDelete (keys : List RedisKey) : Action Unit := external (.redisDelete keys)

/-- `redis.exists`. -/
def redisExists (key : RedisKey) : Action Bool := external (.redisExists key)

/-- `redis.ttl`. -/
def redisTtl (key : RedisKey) : Action ℤ := external (.redisTtl key)

/-- `redis.incr`. -/
def redisIncr (key : RedisKey) : Action ℕ := do
  match (←external (.redisIncr key) : Option ℕ) with
  | some count => return count
  | none => throw .responseError

/-- `redis.expire`. -/
def redisExpire (key : RedisKey) (expiry : ℕ) : Action Unit := external (.redisExpire key expiry)

/-- Record a decision. -/
def observe (observation : Observation) : Action Unit := external (.observe observation)

/-- `SELECT`. -/
def selectRows (t : Table) (q : Row t → Bool) : Action (List (Row t)) :=
  sql (.select t q)

/-- `SELECT ... FOR UPDATE`. -/
def selectRowsForUpdate (t : Table) (q : Row t → Bool) : Action (List (Row t)) :=
  sql (.selectForUpdate t q)

/-- `UPDATE`, returning the number of matched rows. -/
def updateRows (t : Table) (q : Row t → Bool) (f : Row t → Row t) : Action ℕ :=
  sql (.update t q f)

/-- `DELETE`. -/
def deleteRows (t : Table) (q : Row t → Bool) : Action ℕ := sql (.delete t q)

/-- `INSERT`, raising what the driver raises. -/
def insertRow (t : Table) (row : Row t) : Action Unit := do
  match (←sql (.insert t row) : Insertion) with
  | .inserted => return ()
  | .duplicateKey => throw .integrityError
  | .invalidValue => throw .dataError

/-- The `UPDATE` of a changed object at a flush: exactly its row must match. -/
def flushUpdate (t : Table) (isRow : Row t → Bool) (f : Row t → Row t) : Action Unit := do
  let matchedRows ← updateRows t isRow f
  if matchedRows=1 then return () else throw .staleData

/-- `session.commit()`. -/
def commit : Action Unit := sql .commit

/-- `session.rollback()`. -/
def rollback : Action Unit := sql .rollback

/-- `scalar_one_or_none()`. -/
def scalarOneOrNone {α : Type} (rows : List α) : Action (Option α) :=
  match rows with
  | [] => return none
  | [row] => return some row
  | _::_::_ => throw .multipleResultsFound

end Wrappers

section Alone

/-- What one request after another sees: the environment, the database and
the choices still to be made. -/
structure World where
  /-- Everything outside the database. -/
  env : Environment
  /-- The database with the work of the running request. -/
  data : Transaction authSchema
  /-- Choices for the coming effects; zero when they run out. -/
  choices : List ℕ

/-- Answer one effect of the only running request. -/
def World.perform : (op : Effect) → World → op.Reply×World
  | .external op,w =>
    ((w.env.perform op (w.choices.headD 0)).1,
      {w with env := (w.env.perform op (w.choices.headD 0)).2, choices := w.choices.tail})
  | .sql stmt,w => ((Transaction.perform stmt w.data).1,
      {w with data := (Transaction.perform stmt w.data).2})

end Alone

section Interleaved

/-- What concurrent requests share. -/
structure Shared where
  /-- Everything outside the database. -/
  env : Environment
  /-- The tables with their row locks. -/
  tables : Tables authSchema

/-- Answer one effect of one of many requests. -/
def Shared.fire (pid : ℕ) : (op : Effect) → ℕ → Shared → Option (Option op.Reply×Shared)
  | .external op,choice,s =>
    some (some (s.env.perform op choice).1,{s with env := (s.env.perform op choice).2})
  | .sql stmt,_,s => (s.tables.fire pid stmt).map fun (reply,tables) =>
    (reply,{s with tables := tables})

/-- Concurrent requests: closing the database session of a request rolls its
transaction back. -/
def authMachine : Machine authSignature Shared where
  fire := Shared.fire
  close pid s := {s with tables := s.tables.release pid}

end Interleaved

end BackendPlatform.AuthEffects
