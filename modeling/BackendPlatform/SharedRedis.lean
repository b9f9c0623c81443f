import BackendPlatform.AuthRecords
import BackendPlatform.ExpiringStore
import Mathlib.Data.List.Basic

/-!
# One Redis server, three databases

The renderer of the production settings gives every service a Redis URL whose
path selects a logical database. Keys of different databases are different
entries. The markers of revoked sessions are written by the authentication
service to its own database; the gateway and the user service look for them
in theirs, where nothing but rate limits is ever written.
-/

set_option autoImplicit false

namespace BackendPlatform.SharedRedis

open ExpiringStore
open AuthRecords (UUID)

section Texts

/-- `str.isspace` for one character. -/
def isSpace (c : Char) : Bool :=
  c.toNat∈[9,10,11,12,13,28,29,30,31,32,133,160,5760,8232,8233,8239,8287,12288] ||
    (8192≤c.toNat && c.toNat≤8202)

/-- `str.strip` of the characters in a class. -/
def stripChars (p : Char → Bool) (text : String) : String :=
  String.ofList ((text.toList.dropWhile p).reverse.dropWhile p).reverse

/-- `str.strip`. -/
def strip (text : String) : String := stripChars isSpace text

/-- Line boundaries of `str.splitlines`. -/
def isBreak (c : Char) : Bool := c.toNat∈[10,11,12,13,28,29,30,133,8232,8233]

/-- Lines of a text; an empty line between the two characters of a line end
is dropped by every caller. -/
def splitlines (text : String) : List String :=
  (text.toList.splitOnP isBreak).map String.ofList

/-- `_parse_dotenv`: entries in order, later ones win. -/
def parseDotenv (text : String) : List (String×String) :=
  ((splitlines text).map strip).filterMap fun line =>
    if line="" || line.toList.head?=some '#' || !line.toList.contains '=' then none
    else some (strip (String.ofList (line.toList.takeWhile (· ≠ '='))),
      stripChars (· = '\'') (stripChars (· = '"')
        (strip (String.ofList ((line.toList.dropWhile (· ≠ '=')).drop 1)))))

/-- The value of a key in parsed entries. -/
def entry (entries : List (String×String)) (key : String) : Option String :=
  (entries.reverse.find? (·.1=key)).map (·.2)

/-- A hexadecimal digit. -/
def hexDigit (n : ℕ) : Char := "0123456789ABCDEF".toList.getD (n%16) '0'

/-- A character `quote_plus` keeps. -/
def unreserved (c : Char) : Bool := c.isAlphanum || c∈[ '_', '.', '-', '~']

/-- `quote_plus` for one character. -/
def quoteChar (c : Char) : List Char :=
  if c = ' ' then [ '+']
  else if unreserved c then [c]
  else (String.utf8EncodeChar c).flatMap fun byte =>
    [ '%',hexDigit (byte.toNat/16),hexDigit byte.toNat]

/-- `quote_plus` with no safe characters. -/
def quotePlus (text : String) : String := String.ofList (text.toList.flatMap quoteChar)

/-- A character that ends the host part of a URL. -/
def endsHost (c : Char) : Bool := c = '/' || c = '?' || c = '#'

/-- The logical database `Redis.from_url` selects: the path without slashes,
read as a number. -/
def redisDatabase (url : String) : ℕ :=
  let path := ((url.toList.drop "redis://".length).dropWhile fun c => !endsHost c).takeWhile
    fun c => c ≠ '?' && c ≠ '#'
  let digits := path.filter (· ≠ '/')
  if digits.all (·.isDigit) then Nat.ofDigitChars 10 digits 0 else 0

/-- A text without separators. -/
def hostText (text : String) : Bool := text.toList.all fun c => !endsHost c

/-- A character of a host ends no host. -/
theorem endsHost_of_hostText {text : String} (h : hostText text=true) {c : Char}
    (hc : c∈text.toList) : endsHost c=false :=
  (Bool.not_eq_true' _).mp (List.all_eq_true.mp h c hc)

/-- A hexadecimal digit is one of the sixteen. -/
theorem hexDigit_mem (n : ℕ) : hexDigit n∈"0123456789ABCDEF".toList := by
  have hall : ∀ k<16,"0123456789ABCDEF".toList.getD k '0'∈"0123456789ABCDEF".toList := by
    decide
  exact hall _ (Nat.mod_lt n (by decide))

/-- Quoted text never ends the host part of a URL. -/
theorem quotePlus_safe (text : String) : ∀ c∈(quotePlus text).toList,endsHost c=false := by
  intro c hc
  simp only [quotePlus,String.toList_ofList,List.mem_flatMap] at hc
  obtain ⟨a,_,hc⟩ := hc
  unfold quoteChar at hc
  split at hc
  · obtain rfl := List.mem_singleton.mp hc
    decide
  · split at hc
    · rename_i hkeep
      obtain rfl := List.mem_singleton.mp hc
      rw [endsHost,Bool.eq_false_iff]
      intro hend
      simp only [Bool.or_eq_true,decide_eq_true_eq] at hend
      obtain (rfl|rfl)|rfl := hend <;> exact absurd hkeep (by decide)
    · obtain ⟨byte,_,hc⟩ := List.mem_flatMap.mp hc
      have hhex : hostText "0123456789ABCDEF"=true := by decide
      simp only [List.mem_cons,List.not_mem_nil,or_false] at hc
      obtain rfl|rfl|rfl := hc
      · decide
      · exact endsHost_of_hostText hhex (hexDigit_mem _)
      · exact endsHost_of_hostText hhex (hexDigit_mem _)

/-- The Redis URL the renderer writes for a database. -/
def redisUrl (password : String) (database : String) : String :=
  "redis://:"++quotePlus password++"@redis:6379/"++database

/-- The password never changes which database a rendered URL selects. -/
theorem redisDatabase_redisUrl (password database : String) :
    redisDatabase (redisUrl password database)=redisDatabase (redisUrl "" database) := by
  have hpath : ∀ p : String, ((redisUrl p database).toList.drop "redis://".length).dropWhile
      (fun c => !endsHost c) = '/'::database.toList := by
    intro p
    have htext : (redisUrl p database).toList.drop "redis://".length=
        ( ':'::(quotePlus p).toList++"@redis:6379".toList)++ '/'::database.toList := by
      have hlength : "redis://".length=8 := by decide
      simp [redisUrl,hlength]
    rw [htext,List.dropWhile_append_of_pos]
    · rfl
    · intro c hc
      simp only [List.cons_append,List.mem_cons,List.mem_append] at hc
      obtain rfl|hc|hc := hc
      · decide
      · simp [quotePlus_safe p c hc]
      · have hhost : hostText "@redis:6379"=true := by decide
        simp [endsHost_of_hostText hhost hc]
  simp only [redisDatabase,hpath]

end Texts

section Renderer

/-- `_escape_pem`. -/
def escapePem (value : String) : String :=
  String.ofList (value.toList.flatMap fun c => if c = '\n' then [ '\\', 'n'] else [c])

/-- The first text that is not empty: `a or b`. -/
def orElse (a b : String) : String := if a="" then b else a

/-- `_compose_get`. -/
def composeGet (compose : List (String×String)) (key : String) : String :=
  strip ((entry compose key).getD "")

/-- `_quote_env_value`. -/
def quoteEnvValue (val : String) : String :=
  if val="" then ""
  else if val.toList.any fun c => c∈[ ' ', '"', '\n', '\\', '#'] then
    "\""++String.ofList (val.toList.flatMap fun c =>
      if c = '\\' then [ '\\', '\\'] else if c = '"' then [ '\\', '"'] else [c])++"\""
  else val

/-- What the renderer is given. -/
structure Inputs where
  /-- `args.repo_root`. -/
  root : String
  /-- The path of the compose file. -/
  composePath : String
  /-- The compose file. -/
  composeEnv : Option String
  /-- The files of the directory `secrets`. -/
  secrets : String → Option String
  /-- `args.cors_origins`. -/
  corsOrigins : String

/-- `_read_text` of a secret. -/
def Inputs.readText (i : Inputs) (name : String) : String := strip ((i.secrets name).getD "")

/-- `_read_optional_one_line` of a secret. -/
def Inputs.readOptionalOneLine (i : Inputs) (name : String) : String :=
  match i.secrets name with
  | none => ""
  | some text => (((splitlines text).map strip).find? fun s =>
      s≠"" && s.toList.head?≠some '#').getD ""

/-- The mail settings of the authentication service. -/
structure SmtpLines where
  /-- `SMTP_HOST`. -/
  host : String
  /-- `SMTP_PORT`. -/
  port : String
  /-- `SMTP_USERNAME`. -/
  username : String
  /-- `SMTP_PASSWORD`. -/
  password : String
  /-- `SMTP_USE_TLS`. -/
  useTls : String
  /-- `SMTP_FROM_EMAIL`. -/
  fromEmail : String
  /-- `SMTP_FROM_NAME`. -/
  fromName : String
  /-- `SMTP_REQUIRE_DELIVERY`. -/
  requireDelivery : String
  /-- `AUTH_ALLOW_MISSING_SMTP`. -/
  allowMissing : String

/-- `_resolve_smtp_for_auth_env`. -/
def resolveSmtpForAuthEnv (compose : List (String×String)) (i : Inputs) : SmtpLines :=
  let password := orElse (orElse (i.readText "smtp_app_password.txt")
    (i.readText "smtp_password.txt")) (composeGet compose "SMTP_PASSWORD")
  let host := orElse (i.readOptionalOneLine "smtp_host.txt") (composeGet compose "SMTP_HOST")
  let username := orElse (i.readOptionalOneLine "smtp_username.txt")
    (composeGet compose "SMTP_USERNAME")
  let fromEmail := orElse (orElse (i.readOptionalOneLine "smtp_from_email.txt")
    (composeGet compose "SMTP_FROM_EMAIL")) username
  let fromName := orElse (orElse (i.readOptionalOneLine "smtp_from_name.txt")
    (composeGet compose "SMTP_FROM_NAME")) "Backend Platform"
  let identityFallback := i.readOptionalOneLine "smtp_identity_email.txt"
  let username := orElse username identityFallback
  let fromEmail := orElse fromEmail identityFallback
  let host := if password≠"" ∧ host="" then "smtp.gmail.com" else host
  let tls := (composeGet compose "SMTP_USE_TLS").toLower
  let allow := (composeGet compose "AUTH_ALLOW_MISSING_SMTP").toLower
  let deliveryReady := host≠"" ∧ (fromEmail≠"" ∨ username≠"") ∧ password≠""
  { host := quoteEnvValue host
    port := orElse (composeGet compose "SMTP_PORT") "587"
    username := quoteEnvValue username
    password := quoteEnvValue password
    useTls := if tls∈["false","0","no"] then "false" else "true"
    fromEmail := quoteEnvValue fromEmail
    fromName := quoteEnvValue fromName
    requireDelivery := orElse (composeGet compose "SMTP_REQUIRE_DELIVERY") "true"
    allowMissing := if allow∈["true","1","yes"] then "true"
      else if allow∈["false","0","no"] then "false"
      else if deliveryReady then "false" else "true" }

/-- The three services. -/
inductive Service where
  /-- `auth-service`. -/
  | auth
  /-- `user-service`. -/
  | user
  /-- `api-gateway`. -/
  | gateway
deriving DecidableEq

/-- A line `key=value`, or an empty one. -/
abbrev EnvLine := Option (String×String)

/-- The lines of the three `.env` files. -/
abbrev EnvFiles := Service → List EnvLine

/-- The origins of `args.cors_origins`. -/
def corsLine (origins : String) : String :=
  ",".intercalate (((origins.toList.splitOn ',').map fun p => strip (String.ofList p)).filter
    fun p => p≠"")

/-- The three required passwords. -/
structure Passwords where
  /-- `AUTH_DB_PASSWORD`. -/
  authDb : String
  /-- `USER_DB_PASSWORD`. -/
  userDb : String
  /-- `REDIS_PASSWORD`. -/
  redis : String

/-- `compose[key]`. -/
def required (compose : List (String×String)) (key : String) : Except String String :=
  match entry compose key with
  | some value => .ok value
  | none => .error (".env.compose missing key: '"++key++"'")

/-- The passwords of the compose file. -/
def passwords (compose : List (String×String)) : Except String Passwords := do
  let authDb ← required compose "AUTH_DB_PASSWORD"
  let userDb ← required compose "USER_DB_PASSWORD"
  let redis ← required compose "REDIS_PASSWORD"
  return ⟨authDb,userDb,redis⟩

/-- `auth_env`. -/
def authEnv (i : Inputs) (compose : List (String×String)) (p : Passwords) : List EnvLine :=
  let smtp := resolveSmtpForAuthEnv compose i
  let loginMax := orElse (orElse (composeGet compose "LOGIN_MAX_FAILED_ATTEMPTS")
    (composeGet compose "BRUTE_FORCE_LOGIN_MAX_ATTEMPTS")) "3"
  let resetMax := orElse (orElse (composeGet compose "RESET_CODE_MAX_FAILED_ATTEMPTS")
    (composeGet compose "BRUTE_FORCE_PASSWORD_RESET_MAX_ATTEMPTS")) "3"
  [some ("SERVICE_NAME","auth-service"),some ("SERVICE_ENV","production"),
    some ("SERVICE_PORT","8001"),
    some ("CORS_ALLOWED_ORIGINS",corsLine i.corsOrigins),
    some ("TRUSTED_PROXY_IPS","172.16.0.0/12"),none,
    some ("DATABASE_URL","postgresql+asyncpg://auth_service:"++quotePlus p.authDb++
      "@postgres-auth:5432/auth_service"),
    some ("REDIS_URL",redisUrl p.redis "0"),none,
    some ("JWT_ALGORITHM","RS256"),some ("JWT_ISSUER","backend-platform"),
    some ("JWT_AUDIENCE","backend-clients"),
    some ("JWT_ACCESS_TTL_SECONDS","900"),some ("JWT_REFRESH_TTL_SECONDS","2592000"),
    some ("JWT_PRIVATE_KEY","\""++escapePem (i.readText "jwt_private.pem")++"\""),
    some ("JWT_PUBLIC_KEY","\""++escapePem (i.readText "jwt_public.pem")++"\""),none,
    some ("REFRESH_TOKEN_HASH_PEPPER",i.readText "refresh_token_pepper.txt"),
    some ("PRIVACY_KEY_PEPPER",i.readText "privacy_key_pepper.txt"),
    some ("PASSWORD_RESET_TOKEN_PEPPER",i.readText "password_reset_pepper.txt"),none,
    some ("TOTP_ISSUER","Backend Platform"),
    some ("TOTP_ENCRYPTION_KEY",i.readText "totp_fernet.key"),
    some ("TOTP_CODE_DIGITS","6"),some ("TOTP_INTERVAL_SECONDS","30"),none,
    some ("LOGIN_CHALLENGE_TTL_SECONDS","300"),some ("PASSWORD_RESET_TOKEN_TTL_SECONDS","900"),
    some ("SMTP_HOST",smtp.host),some ("SMTP_PORT",smtp.port),some ("SMTP_USERNAME",smtp.username),
    some ("SMTP_PASSWORD",smtp.password),some ("SMTP_USE_TLS",smtp.useTls),
    some ("SMTP_FROM_EMAIL",smtp.fromEmail),some ("SMTP_FROM_NAME",smtp.fromName),
    some ("SMTP_REQUIRE_DELIVERY",smtp.requireDelivery),
    some ("AUTH_ALLOW_MISSING_SMTP",smtp.allowMissing),
    some ("SUPPORT_EMAIL",quoteEnvValue (composeGet compose "SUPPORT_EMAIL")),none,
    some ("RATE_LIMIT_LOGIN_PER_MINUTE","10"),some ("RATE_LIMIT_2FA_PER_MINUTE","10"),
    some ("RATE_LIMIT_REFRESH_PER_MINUTE","30"),some ("RATE_LIMIT_REGISTER_PER_MINUTE","5"),
    some ("RATE_LIMIT_PASSWORD_RESET_PER_MINUTE","5"),none,
    some ("BRUTE_FORCE_LOGIN_MAX_ATTEMPTS",loginMax),
    some ("BRUTE_FORCE_LOGIN_WINDOW_SECONDS","300"),
    some ("BRUTE_FORCE_LOGIN_LOCK_SECONDS","900"),some ("BRUTE_FORCE_2FA_MAX_ATTEMPTS","5"),
    some ("BRUTE_FORCE_2FA_WINDOW_SECONDS","300"),some ("BRUTE_FORCE_2FA_LOCK_SECONDS","900"),
    some ("BRUTE_FORCE_PASSWORD_RESET_MAX_ATTEMPTS",resetMax),
    some ("BRUTE_FORCE_PASSWORD_RESET_WINDOW_SECONDS","300"),
    some ("BRUTE_FORCE_PASSWORD_RESET_LOCK_SECONDS","900"),none,
    some ("ARGON2_TIME_COST","3"),some ("ARGON2_MEMORY_COST","65536"),
    some ("ARGON2_PARALLELISM","4"),
    some ("ARGON2_HASH_LENGTH","32"),some ("ARGON2_SALT_LENGTH","16"),none]

/-- `user_env`. -/
def userEnv (i : Inputs) (p : Passwords) : List EnvLine :=
  [some ("SERVICE_NAME","user-service"),some ("SERVICE_ENV","production"),
    some ("SERVICE_PORT","8002"),
    some ("CORS_ALLOWED_ORIGINS",corsLine i.corsOrigins),
    some ("TRUSTED_PROXY_IPS","172.16.0.0/12"),none,
    some ("DATABASE_URL","postgresql+asyncpg://user_service:"++quotePlus p.userDb++
      "@postgres-user:5432/user_service"),
    some ("REDIS_URL",redisUrl p.redis "1"),none,
    some ("JWT_ALGORITHM","RS256"),some ("JWT_ISSUER","backend-platform"),
    some ("JWT_AUDIENCE","backend-clients"),
    some ("JWT_PUBLIC_KEY","\""++escapePem (i.readText "jwt_public.pem")++"\""),
    some ("PRIVACY_KEY_PEPPER",i.readText "privacy_key_pepper.txt"),none,
    some ("RATE_LIMIT_PROFILE_WRITE_PER_MINUTE","30"),
    some ("RATE_LIMIT_ROLES_WRITE_PER_MINUTE","10"),none]

/-- `gateway_env`. -/
def gatewayEnv (i : Inputs) (compose : List (String×String)) (p : Passwords) : List EnvLine :=
  let refreshSecure := composeGet compose "REFRESH_COOKIE_SECURE"
  [some ("SERVICE_NAME","api-gateway"),some ("SERVICE_ENV","production"),
    some ("SERVICE_PORT","8000"),
    some ("CORS_ALLOWED_ORIGINS",corsLine i.corsOrigins),none,
    some ("REDIS_URL",redisUrl p.redis "2"),some ("AUTH_SERVICE_URL","http://auth-service:8001"),
    some ("USER_SERVICE_URL","http://user-service:8002"),some ("NOTIFICATION_SERVICE_URL",""),none,
    some ("JWT_ALGORITHM","RS256"),some ("JWT_ISSUER","backend-platform"),
    some ("JWT_AUDIENCE","backend-clients"),
    some ("JWT_PUBLIC_KEY","\""++escapePem (i.readText "jwt_public.pem")++"\""),
    some ("PRIVACY_KEY_PEPPER",i.readText "privacy_key_pepper.txt"),none,
    some ("UPSTREAM_TIMEOUT_SECONDS","10"),some ("TRUSTED_PROXY_IPS","172.16.0.0/12"),
    some ("RATE_LIMIT_PUBLIC_AUTH_PER_MINUTE","30"),
    some ("RATE_LIMIT_PROTECTED_PER_MINUTE","120"),none]++
  if refreshSecure="" then [] else [some ("REFRESH_COOKIE_SECURE",refreshSecure),none]

/-- The secrets that have to exist. -/
def requiredSecrets : List String :=
  ["jwt_private.pem","jwt_public.pem","refresh_token_pepper.txt","privacy_key_pepper.txt",
    "password_reset_pepper.txt","totp_fernet.key"]

/-- `main`: the written files, or the message it exits with. -/
def main (i : Inputs) : Except String EnvFiles :=
  match i.composeEnv with
  | none => .error ("Missing "++i.composePath)
  | some text =>
    match requiredSecrets.find? fun name => (i.secrets name).isNone with
    | some name => .error ("Missing secret file: "++i.root++"/secrets/"++name)
    | none =>
      match passwords (parseDotenv text) with
      | .error message => .error message
      | .ok p => .ok fun
        | .auth => authEnv i (parseDotenv text) p
        | .user => userEnv i p
        | .gateway => gatewayEnv i (parseDotenv text) p

/-- The path of the Redis URL of a service. -/
def Service.path : Service → String
  | .auth => "0"
  | .user => "1"
  | .gateway => "2"

/-- Every written file has the Redis URL of its service. -/
theorem redisUrl_rendered {i : Inputs} {files : EnvFiles} (h : main i=.ok files) :
    ∃ password,∀ service : Service,
      some ("REDIS_URL",redisUrl password service.path)∈files service := by
  unfold main at h
  split at h
  · cases h
  · split at h
    · cases h
    · split at h
      · cases h
      · rename_i text _ _ _ _ p _
        obtain rfl := Except.ok.inj h
        refine ⟨p.redis,fun service => ?_⟩
        cases service with
        | auth => simp [authEnv,Service.path]
        | user => simp [userEnv,Service.path]
        | gateway => simp [gatewayEnv,Service.path]

end Renderer

section Markers

/-- `access_session_revoked_key`, the same in all services. -/
def accessSessionRevokedKey (sessionId : String) : String := "access_session_revoked:"++sessionId

/-- The other keys the services build. -/
inductive OtherKey where
  /-- `rate_limit_key`. -/
  | rateLimit (scope ip bucket : String)
  /-- `brute_force_fail_key`. -/
  | bruteForceFail (scope identifier : String)
  /-- `brute_force_lock_key`. -/
  | bruteForceLock (scope identifier : String)
  /-- `login_challenge_key`. -/
  | loginChallenge (challengeId : String)

/-- The text of a key. -/
def OtherKey.text : OtherKey → String
  | .rateLimit scope ip bucket => "rate_limit:"++scope++":"++ip++":"++bucket
  | .bruteForceFail scope identifier => "brute_force:"++scope++":"++identifier++":fail"
  | .bruteForceLock scope identifier => "brute_force:"++scope++":"++identifier++":lock"
  | .loginChallenge challengeId => "login_challenge:"++challengeId

/-- The Redis server: its time in seconds and the entries of all databases. -/
structure Redis where
  /-- The time. -/
  now : ℕ
  /-- The entries by database and key. -/
  entries : Store (ℕ×String) String

namespace Redis

/-- `SET` with an optional expiry. -/
def set (database : ℕ) (key value : String) (ex : Option ℕ) (r : Redis) : Redis :=
  {r with entries := r.entries.assign (database,key) value (ex.map (r.now+·))}

/-- `EXISTS`. -/
def contains (database : ℕ) (key : String) (r : Redis) : Bool :=
  (r.entries.lookup r.now (database,key)).isSome

/-- `INCR` on a number, from zero when the key is gone. -/
def incr (database : ℕ) (key : String) (r : Redis) : Redis :=
  match r.entries.lookup r.now (database,key) with
  | none => r.set database key "1" none
  | some value =>
    {r with entries := r.entries.replace (database,key) (toString (value.toNat?.getD 0+1))}

/-- `EXPIRE`. -/
def expire (database : ℕ) (key : String) (seconds : ℕ) (r : Redis) : Redis :=
  {r with entries := r.entries.retime r.now (database,key) (r.now+seconds)}

/-- `DEL`. -/
def delete (database : ℕ) (key : String) (r : Redis) : Redis :=
  {r with entries := r.entries.remove (database,key)}

end Redis

/-- `_mark_access_session_revoked`. -/
def markAccessSessionRevoked (accessTtl database : ℕ) (sessionId : UUID) (r : Redis) : Redis :=
  r.set database (accessSessionRevokedKey sessionId.str) "1" (some (max accessTtl 60))

/-- `_mark_access_sessions_revoked`. -/
def markAccessSessionsRevoked (accessTtl database : ℕ) : List UUID → Redis → Redis
  | [],r => r
  | sessionId::rest,r =>
    markAccessSessionsRevoked accessTtl database rest
      (markAccessSessionRevoked accessTtl database sessionId r)

/-- `ensure_access_session_active`, the same in all services. -/
def ensureAccessSessionActive (database : ℕ) (sessionId : UUID) (r : Redis) :
    Except String Unit :=
  if r.contains database (accessSessionRevokedKey sessionId.str) then
    .error "Access session revoked"
  else .ok ()

/-- What happens on the server. -/
inductive Event where
  /-- Logout or the reuse of a refresh token revokes a session. -/
  | markOne (sessionId : UUID)
  /-- A password reset revokes sessions. -/
  | markAll (sessionIds : List UUID)
  /-- A service sets another key. -/
  | set (service : Service) (key : OtherKey) (value : String) (ex : Option ℕ)
  /-- A service increments another key. -/
  | incr (service : Service) (key : OtherKey)
  /-- A service sets the expiry of another key. -/
  | expire (service : Service) (key : OtherKey) (seconds : ℕ)
  /-- A service deletes another key. -/
  | delete (service : Service) (key : OtherKey)
  /-- Time passes. -/
  | pass (seconds : ℕ)

variable (accessTtl : ℕ) (databases : Service → ℕ)

/-- One event; every service uses its own database. -/
def Redis.step (r : Redis) : Event → Redis
  | .markOne sessionId => markAccessSessionRevoked accessTtl (databases .auth) sessionId r
  | .markAll sessionIds => markAccessSessionsRevoked accessTtl (databases .auth) sessionIds r
  | .set service key value ex => r.set (databases service) key.text value ex
  | .incr service key => r.incr (databases service) key.text
  | .expire service key seconds => r.expire (databases service) key.text seconds
  | .delete service key => r.delete (databases service) key.text
  | .pass seconds => {r with now := r.now+seconds}

/-- The server after a run from an empty one. -/
def Redis.after (events : List Event) : Redis :=
  events.foldl (Redis.step accessTtl databases) ⟨0,Store.empty⟩

/-- The run sets the marker of the session. -/
def Revokes (events : List Event) (sessionId : UUID) : Prop :=
  .markOne sessionId∈events ∨ ∃ sessionIds,.markAll sessionIds∈events ∧ sessionId∈sessionIds

/-- Revocation is seen by every service: while the marker of a revoked session
lives, the gateway and the user service refuse the session. -/
def RevocationSeen : Prop :=
  ∀ events sessionId,Revokes events sessionId →
    (Redis.after accessTtl databases events).contains (databases .auth)
      (accessSessionRevokedKey sessionId.str)=true →
    ∀ service,service≠.auth →
      ensureAccessSessionActive (databases service) sessionId
        (Redis.after accessTtl databases events)=.error "Access session revoked"

variable {accessTtl databases}

/-- A marker is seen in the database it was set in, or was there before. -/
theorem contains_mark {r : Redis} {database other : ℕ} {sessionId : UUID} :
    (markAccessSessionRevoked accessTtl database sessionId r).contains other
      (accessSessionRevokedKey sessionId.str)=true ↔
        other=database ∨ r.contains other (accessSessionRevokedKey sessionId.str)=true := by
  have hlater : r.now<r.now+max accessTtl 60 := by omega
  by_cases h : other=database
  · subst h
    simp [Redis.contains,markAccessSessionRevoked,Redis.set,Store.lookup,Entry.live,hlater]
  · have hkey : (other,accessSessionRevokedKey sessionId.str)≠
        (database,accessSessionRevokedKey sessionId.str) := fun he => h (congrArg Prod.fst he)
    simp [Redis.contains,markAccessSessionRevoked,Redis.set,Store.lookup,
      Store.assign_of_ne _ _ _ hkey,h]

/-- Revocation is seen exactly when all services use one database. -/
theorem revocationSeen_iff :
    RevocationSeen accessTtl databases ↔ ∀ service,databases service=databases .auth := by
  constructor
  · intro hseen service
    by_cases hauth : service=.auth
    · rw [hauth]
    · have hafter : Redis.after accessTtl databases [.markOne ⟨0⟩]=
          markAccessSessionRevoked accessTtl (databases .auth) ⟨0⟩ ⟨0,Store.empty⟩ := rfl
      have hrefused := hseen [.markOne ⟨0⟩] ⟨0⟩ (.inl (List.mem_singleton_self _))
        (by rw [hafter]; exact contains_mark.mpr (.inl rfl)) service hauth
      unfold ensureAccessSessionActive at hrefused
      split at hrefused
      · rename_i hpresent
        rw [hafter] at hpresent
        refine (contains_mark.mp hpresent).resolve_right fun hempty => ?_
        simp [Redis.contains,Store.lookup,Store.empty] at hempty
      · cases hrefused
  · intro hshared events sessionId _ hlive service _
    unfold ensureAccessSessionActive
    rw [hshared service,if_pos hlive]

/-- The databases that the settings select: `REDIS_URL` is required. -/
def Configured (dotenv : List EnvLine → String → Option String) (files : EnvFiles)
    (databases : Service → ℕ) : Prop :=
  ∀ service,∃ url,dotenv (files service) "REDIS_URL"=some url ∧
    databases service=redisDatabase url

/-- The settings reader finds the entry of a file. -/
def ReadsRedisUrl (dotenv : List EnvLine → String → Option String) (files : EnvFiles) : Prop :=
  ∀ service url,some ("REDIS_URL",url)∈files service → dotenv (files service) "REDIS_URL"=some url

/-- Each service gets a Redis database of its own. -/
theorem redisDatabase_path (password : String) (service : Service) :
    redisDatabase (redisUrl password service.path)=
      match service with
      | .auth => 0
      | .user => 1
      | .gateway => 2 := by
  rw [redisDatabase_redisUrl]
  cases service <;> decide +kernel

/-- Rendered files give every service a database of its own. -/
theorem configured_rendered {dotenv : List EnvLine → String → Option String} {i : Inputs}
    {files : EnvFiles} (h : main i=.ok files) (hread : ReadsRedisUrl dotenv files)
    (hconfigured : Configured dotenv files databases) :
    databases .auth=0 ∧ databases .user=1 ∧ databases .gateway=2 := by
  obtain ⟨password,hrendered⟩ := redisUrl_rendered h
  have hdatabase : ∀ service,databases service=redisDatabase (redisUrl password service.path) := by
    intro service
    obtain ⟨url,hurl,hselects⟩ := hconfigured service
    have hsame := hread service _ (hrendered service)
    rw [hurl] at hsame
    rw [hselects,Option.some.inj hsame]
  refine ⟨?_,?_,?_⟩
  · rw [hdatabase,redisDatabase_path]
  · rw [hdatabase,redisDatabase_path]
  · rw [hdatabase,redisDatabase_path]

/-- Revocation is never seen outside the authentication service: whatever the
renderer is given, the files it writes separate the services. -/
theorem revocation_never_seen (dotenv : List EnvLine → String → Option String) (i : Inputs)
    (files : EnvFiles) (h : main i=.ok files) (hread : ReadsRedisUrl dotenv files)
    (hconfigured : Configured dotenv files databases) :
    ¬RevocationSeen accessTtl databases := by
  obtain ⟨hauth,huser,_⟩ := configured_rendered h hread hconfigured
  intro hseen
  have hshared := revocationSeen_iff.mp hseen .user
  omega

/-- A reader of plain entries; the last one of a key counts. -/
def plainEntry (lines : List EnvLine) (key : String) : Option String :=
  entry (lines.filterMap id) key

/-- No other line of a rendered file has the key of the Redis URL. -/
theorem reads_plainEntry {i : Inputs} {files : EnvFiles} (h : main i=.ok files) :
    ReadsRedisUrl plainEntry files := by
  unfold main at h
  split at h
  · cases h
  · split at h
    · cases h
    · split at h
      · cases h
      · rename_i text _ _ _ _ p _
        obtain rfl := Except.ok.inj h
        intro service url hurl
        cases service with
        | auth =>
          have hrendered : url=redisUrl p.redis "0" := by simpa [authEnv] using hurl
          simp [hrendered,plainEntry,entry,authEnv]
        | user =>
          have hrendered : url=redisUrl p.redis "1" := by simpa [userEnv] using hurl
          simp [hrendered,plainEntry,entry,userEnv]
        | gateway =>
          have hrendered : url=redisUrl p.redis "2" := by
            simp only [gatewayEnv,List.mem_append] at hurl
            rcases hurl with hfixed | hoptional
            · simpa using hfixed
            · split at hoptional <;> simp at hoptional
          by_cases hsecure : composeGet (parseDotenv text) "REFRESH_COOKIE_SECURE"=""
          · simp [hrendered,plainEntry,entry,gatewayEnv,hsecure]
          · simp [hrendered,plainEntry,entry,gatewayEnv,hsecure]

/-- A compose file with its three passwords and a directory with all secrets. -/
def sampleInputs : Inputs :=
  { root := "/srv/platform"
    composePath := "/srv/platform/infra/compose/.env.compose"
    composeEnv := some "AUTH_DB_PASSWORD=a\nUSER_DB_PASSWORD=u\nREDIS_PASSWORD=r"
    secrets := fun name => if name∈requiredSecrets then some "x" else none
    corsOrigins := "https://example.org" }

/-- The databases of the rendered Redis URLs. -/
def renderedDatabase : Service → ℕ
  | .auth => 0
  | .user => 1
  | .gateway => 2

/-- The files that were written configure the rendered databases. -/
theorem configured_plainEntry {i : Inputs} {files : EnvFiles} (h : main i=.ok files) :
    Configured plainEntry files renderedDatabase := by
  obtain ⟨password,hrendered⟩ := redisUrl_rendered h
  intro service
  refine ⟨_,reads_plainEntry h service _ (hrendered service),?_⟩
  rw [redisDatabase_path]
  cases service <;> rfl

/-- The sample is rendered. -/
theorem exists_main_sampleInputs : ∃ files,main sampleInputs=.ok files := by
  have hok : (main sampleInputs).toBool=true := by
    decide +kernel
  cases hmain : main sampleInputs with
  | ok files => exact ⟨files,rfl⟩
  | error message =>
    rw [hmain] at hok
    cases hok

/-- With the sample inputs no service sees the marker of another. -/
theorem revocation_never_seen_sample : ∃ files,main sampleInputs=.ok files ∧
    Configured plainEntry files renderedDatabase ∧ ¬RevocationSeen 900 renderedDatabase := by
  obtain ⟨files,hmain⟩ := exists_main_sampleInputs
  exact ⟨files,hmain,configured_plainEntry hmain,revocation_never_seen plainEntry sampleInputs files
    hmain (reads_plainEntry hmain) (configured_plainEntry hmain)⟩

/-- In the sample a logout is not seen by the gateway. -/
theorem revocation_unseen : ∃ files,main sampleInputs=.ok files ∧
    Configured plainEntry files renderedDatabase ∧
    Revokes [.markOne ⟨7⟩] ⟨7⟩ ∧
    (Redis.after 900 renderedDatabase [.markOne ⟨7⟩]).contains (renderedDatabase .auth)
      (accessSessionRevokedKey (UUID.str ⟨7⟩))=true ∧
    ensureAccessSessionActive (renderedDatabase .gateway) ⟨7⟩
      (Redis.after 900 renderedDatabase [.markOne ⟨7⟩])=.ok () := by
  obtain ⟨files,hmain⟩ := exists_main_sampleInputs
  refine ⟨files,hmain,configured_plainEntry hmain,.inl (List.mem_singleton_self _),?_,?_⟩
  · exact contains_mark.mpr (.inl rfl)
  · have hafter : Redis.after 900 renderedDatabase [.markOne ⟨7⟩]=
        markAccessSessionRevoked 900 0 ⟨7⟩ ⟨0,Store.empty⟩ := rfl
    have hunseen : ¬(Redis.after 900 renderedDatabase [.markOne ⟨7⟩]).contains
        (renderedDatabase .gateway) (accessSessionRevokedKey (UUID.str ⟨7⟩))=true := by
      rw [hafter]
      intro hpresent
      refine absurd (contains_mark.mp hpresent) ?_
      simp [renderedDatabase,Redis.contains,Store.lookup,Store.empty]
    rw [ensureAccessSessionActive,if_neg hunseen]

end Markers

end BackendPlatform.SharedRedis
