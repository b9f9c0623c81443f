import BackendPlatform.DotenvValues
import BackendPlatform.MailReadiness

/-!
# Rendered secrets

The mail settings are written in quotes where that seems needed, and the
passwords of the databases and of Redis are percent-encoded into URLs. Both are
read back elsewhere: the lines of the `.env` by their own rules, and the
password of a URL by percent-decoding.
-/

set_option autoImplicit false

namespace BackendPlatform.RenderedSecrets

open SharedRedis
open MailReadiness
open DotenvValues

section Percent

/-- The value of a hexadecimal digit. -/
def hexValue (c : Char) : Option ℕ :=
  if '0'≤c ∧ c≤ '9' then some (c.toNat-48)
  else if 'A'≤c ∧ c≤ 'F' then some (c.toNat-55)
  else if 'a'≤c ∧ c≤ 'f' then some (c.toNat-87)
  else none

/-- `unquote_to_bytes`. -/
def unquoteToBytes : List Char → List UInt8
  | [] => []
  | [c] => String.utf8EncodeChar c
  | [c,d] => String.utf8EncodeChar c++String.utf8EncodeChar d
  | c::d::e::rest =>
    if c = '%' then
      match hexValue d,hexValue e with
      | some x,some y => UInt8.ofNat (16*x+y)::unquoteToBytes rest
      | _,_ => String.utf8EncodeChar c++unquoteToBytes (d::e::rest)
    else String.utf8EncodeChar c++unquoteToBytes (d::e::rest)

/-- `unquote`. What a malformed text becomes is left open. -/
def unquote (replaced : List UInt8 → String) (text : List Char) : String :=
  (String.fromUTF8? (unquoteToBytes text).toByteArray).getD (replaced (unquoteToBytes text))

/-- The password of a URL: what follows the colon after the name, up to the
`@` that ends both. -/
def urlPassword (url : String) : List Char :=
  let userinfo := ((url.toList.dropWhile (·≠ '/')).drop 2).takeWhile (·≠ '@')
  (userinfo.dropWhile (·≠ ':')).drop 1

/-- A character that is not percent-decoded. -/
theorem unquoteToBytes_cons {c : Char} (h : c≠ '%') (rest : List Char) :
    unquoteToBytes (c::rest)=String.utf8EncodeChar c++unquoteToBytes rest := by
  match rest with
  | [] => simp [unquoteToBytes]
  | [d] => simp [unquoteToBytes]
  | d::e::rest => simp [unquoteToBytes,h]

/-- A digit is read back. -/
theorem hexValue_hexDigit (n : ℕ) : hexValue (hexDigit n)=some (n%16) := by
  have hall : ∀ k<16,hexValue ("0123456789ABCDEF".toList.getD k '0')=some k := by
    decide
  exact hall _ (Nat.mod_lt n (by decide))

/-- A byte is read back. -/
theorem unquoteToBytes_byte (byte : UInt8) (rest : List Char) :
    unquoteToBytes ('%'::hexDigit (byte.toNat/16)::hexDigit byte.toNat::rest)=
      byte::unquoteToBytes rest := by
  have hbyte : byte.toNat<256 := UInt8.toNat_lt_size byte
  have hvalue : 16*(byte.toNat/16%16)+byte.toNat%16=byte.toNat := by omega
  simp only [unquoteToBytes,if_true,hexValue_hexDigit,hvalue,UInt8.ofNat_toNat]

/-- Encoded bytes are read back. -/
theorem unquoteToBytes_bytes (bytes : List UInt8) (rest : List Char) :
    unquoteToBytes ((bytes.flatMap fun byte =>
      [ '%',hexDigit (byte.toNat/16),hexDigit byte.toNat])++rest)=bytes++unquoteToBytes rest := by
  induction bytes with
  | nil => rfl
  | cons byte bytes ih =>
    rw [List.flatMap_cons,List.append_assoc]
    have hstep := unquoteToBytes_byte byte ((bytes.flatMap fun byte =>
      [ '%',hexDigit (byte.toNat/16),hexDigit byte.toNat])++rest)
    rw [ih] at hstep
    exact hstep

/-- What `unquote` leaves of `quote_plus`: a space stays a plus. -/
def plus (c : Char) : Char := if c = ' ' then '+' else c

/-- One quoted character is read back. -/
theorem unquoteToBytes_quoteChar (c : Char) (rest : List Char) :
    unquoteToBytes (quoteChar c++rest)=String.utf8EncodeChar (plus c)++unquoteToBytes rest := by
  unfold quoteChar plus
  split
  · exact unquoteToBytes_cons (by decide) rest
  · split
    · rename_i hkeep
      have hpercent : c≠ '%' := by
        rintro rfl
        exact absurd hkeep (by decide)
      exact unquoteToBytes_cons hpercent rest
    · exact unquoteToBytes_bytes _ rest

/-- Unquoting a quoted text gives its bytes, a blank read from a plus. -/
theorem unquoteToBytes_quoted (text : List Char) :
    unquoteToBytes (text.flatMap quoteChar)=(text.map plus).flatMap String.utf8EncodeChar := by
  induction text with
  | nil => rfl
  | cons c rest ih => rw [List.flatMap_cons,unquoteToBytes_quoteChar,ih,List.map_cons,
      List.flatMap_cons]

/-- The bytes of a text are that text. -/
theorem fromUTF8?_utf8 (text : List Char) :
    String.fromUTF8? (text.flatMap String.utf8EncodeChar).toByteArray=
      some (String.ofList text) := by
  have hvalid : (text.flatMap String.utf8EncodeChar).toByteArray.IsValidUTF8 := .intro text rfl
  rw [String.fromUTF8?,dif_pos hvalid]
  rfl

/-- A quoted text is unquoted with its spaces as pluses. -/
theorem unquote_quotePlus (replaced : List UInt8 → String) (text : String) :
    unquote replaced (quotePlus text).toList=String.ofList (text.toList.map plus) := by
  rw [unquote,quotePlus,String.toList_ofList,unquoteToBytes_quoted,fromUTF8?_utf8,Option.getD_some]

/-- A quoted text without spaces comes back, and only such a text. -/
theorem unquote_quotePlus_iff (replaced : List UInt8 → String) (text : String) :
    unquote replaced (quotePlus text).toList=text ↔ ' '∉text.toList := by
  rw [unquote_quotePlus]
  have hmap : text.toList.map plus=text.toList ↔ ∀ c∈text.toList,plus c=c := by
    have hinj := @List.map_inj_left _ _ text.toList plus id
    rwa [List.map_id] at hinj
  constructor
  · intro hsame hspace
    have hlist : text.toList.map plus=text.toList := by
      have hchars := congrArg String.toList hsame
      rwa [String.toList_ofList] at hchars
    have hfixed := hmap.mp hlist ' ' hspace
    exact absurd hfixed (by decide)
  · intro hspace
    have hlist : text.toList.map plus=text.toList := by
      refine hmap.mpr fun c hc => ?_
      have hne : c≠ ' ' := fun heq => hspace (heq ▸ hc)
      simp [plus,hne]
    rw [hlist,String.ofList_toList]

/-- A character that separates the parts of a URL. -/
def separator (c : Char) : Bool := c = ':' || c = '@' || c = '/'

/-- A text without separators. -/
def Plain (text : List Char) : Prop := ∀ c∈text,separator c=false

/-- The decidable check gives a plain text. -/
theorem plain_of_all {text : List Char} (h : (text.all fun c => !separator c)=true) :
    Plain text := fun c hc => by simpa using List.all_eq_true.mp h c hc

/-- A plain text holds no separator. -/
theorem Plain.ne {text : List Char} (h : Plain text) {s : Char} (hs : separator s=true) :
    ∀ c∈text,decide (c≠s)=true := by
  intro c hc
  have hplain := h c hc
  refine decide_eq_true fun heq => ?_
  rw [heq,hs] at hplain
  cases hplain

/-- Quoted text has no separators. -/
theorem plain_quotePlus (text : String) : Plain (quotePlus text).toList := by
  intro c hc
  rw [quotePlus,String.toList_ofList] at hc
  obtain ⟨a,_,hc⟩ := List.mem_flatMap.mp hc
  unfold quoteChar at hc
  split at hc
  · have heq := List.mem_singleton.mp hc
    subst heq
    decide
  · split at hc
    · rename_i hkeep
      have heq := List.mem_singleton.mp hc
      subst heq
      rw [separator,Bool.eq_false_iff]
      intro hsep
      simp only [Bool.or_eq_true,decide_eq_true_eq] at hsep
      rcases hsep with (rfl|rfl)|rfl
      · exact absurd hkeep (by decide)
      · exact absurd hkeep (by decide)
      · exact absurd hkeep (by decide)
    · obtain ⟨byte,_,hc⟩ := List.mem_flatMap.mp hc
      have hdigits : Plain "0123456789ABCDEF".toList := plain_of_all (by decide)
      simp only [List.mem_cons,List.not_mem_nil,or_false] at hc
      rcases hc with rfl|rfl|rfl
      · decide
      · exact hdigits _ (hexDigit_mem _)
      · exact hdigits _ (hexDigit_mem _)

/-- The password of a URL with a quoted one is the quoted one. -/
theorem urlPassword_quoted {scheme name : List Char} (password : String) (rest : List Char)
    (hscheme : (scheme.all fun c => c≠ '/')=true) (hname : Plain name) {url : String}
    (hurl : url.toList=scheme++ '/':: '/'::((name++ ':'::(quotePlus password).toList)++ '@'::rest)) :
    urlPassword url=(quotePlus password).toList := by
  have hslash : ∀ c∈scheme,decide (c≠ '/')=true := List.all_eq_true.mp hscheme
  have huser : ∀ c∈name++ ':'::(quotePlus password).toList,decide (c≠ '@')=true := by
    intro c hc
    rcases List.mem_append.mp hc with hleft|hright
    · exact hname.ne (by decide) c hleft
    · rcases List.mem_cons.mp hright with rfl|hquoted
      · decide
      · exact (plain_quotePlus password).ne (by decide) c hquoted
  have hfirst : ∀ c∈name,decide (c≠ ':')=true := hname.ne (by decide)
  simp only [urlPassword]
  rw [hurl,List.dropWhile_append_of_pos hslash,List.dropWhile_cons_of_neg (by decide),
    List.drop_succ_cons,List.drop_succ_cons,List.drop_zero,List.takeWhile_append_of_pos huser,
    List.takeWhile_cons_of_neg (by decide),List.append_nil,List.dropWhile_append_of_pos hfirst,
    List.dropWhile_cons_of_neg (by decide),List.drop_succ_cons,List.drop_zero]

end Percent

section Values

/-- `_quote_env_value` writes the value in quotes. -/
def Written (value : String) : Prop :=
  ∃ c∈value.toList,c∈[ ' ', '"', '\n', '\\', '#']

/-- A value of one line with nothing around it. -/
structure Clean (value : String) : Prop where
  /-- It is not empty. -/
  nonempty : value≠""
  /-- It is trimmed. -/
  trimmed : strip value=value
  /-- It is a single line. -/
  single : ∀ c∈value.toList,c≠ '\n' ∧ c≠ '\r'

/-- A value that is read back: it has no reference, and a value that starts
with a single quote has a character for which it is written in quotes. -/
def ReadBack (value : String) : Prop :=
  Literal value.toList ∧ (value.toList.head?=some '\'' → Written value)

/-- Dropping at the front keeps a list exactly when it keeps its length. -/
theorem dropWhile_eq_self {p : Char → Bool} {text : List Char}
    (h : text.length≤(text.dropWhile p).length) : text.dropWhile p=text :=
  (List.dropWhile_suffix p).eq_of_length_le h

/-- A trimmed value keeps both its ends. -/
theorem ends_of_strip {value : String} (h : strip value=value) :
    value.toList.dropWhile isSpace=value.toList ∧
      value.toList.rdropWhile isSpace=value.toList := by
  have hlist : ((value.toList.dropWhile isSpace).reverse.dropWhile isSpace).reverse=
      value.toList := by
    have hchars := congrArg String.toList h
    rwa [strip,stripChars,String.toList_ofList] at hchars
  have hlength := congrArg List.length hlist
  have hinner := (List.dropWhile_suffix (l := (value.toList.dropWhile isSpace).reverse)
    isSpace).length_le
  rw [List.length_reverse] at hlength hinner
  have hfront : value.toList.dropWhile isSpace=value.toList :=
    dropWhile_eq_self (by omega)
  rw [hfront] at hlist
  exact ⟨hfront,hlist⟩

/-- A value in quotes is its escaped characters. -/
theorem quoteEnvValue_written {value : String} (h : Written value) :
    quoteEnvValue value=String.ofList ('"'::(value.toList.flatMap escapeChar++[ '"'])) := by
  have hne : value≠"" := by
    rintro rfl
    obtain ⟨c,hc,_⟩ := h
    cases hc
  have hany : (value.toList.any fun c => c∈[ ' ', '"', '\n', '\\', '#'])=true := by
    obtain ⟨c,hc,hmem⟩ := h
    exact List.any_eq_true.mpr ⟨c,hc,decide_eq_true hmem⟩
  have hescape : (fun c => if c = '\\' then [ '\\', '\\'] else if c = '"' then [ '\\', '"']
      else [c])=escapeChar := rfl
  rw [quoteEnvValue,if_neg hne,if_pos hany,hescape]
  apply String.toList_injective
  simp

/-- A value without special characters is written as it is. -/
theorem quoteEnvValue_plain {value : String} (h : ¬Written value) :
    quoteEnvValue value=value := by
  have hany : ¬(value.toList.any fun c => c∈[ ' ', '"', '\n', '\\', '#'])=true := by
    intro hany
    obtain ⟨c,hc,hmem⟩ := List.any_eq_true.mp hany
    exact h ⟨c,hc,of_decide_eq_true hmem⟩
  rw [quoteEnvValue,if_neg hany]
  split
  · rename_i hempty
    exact hempty.symm
  · rfl

/-- What is written in quotes is read back before its references. -/
theorem readValue_written (text : List Char) :
    readValue isSpace ('"'::(text.flatMap escapeChar++[ '"']))=some text := by
  simp [readValue,quotedBody_escape,onlyComment,decodeEscapes_escape]

/-- What is written as it is and starts with no quote is read back before its
references. -/
theorem readValue_plain {value : String} (h : ¬Written value) (htrimmed : strip value=value)
    (hquote : value.toList.head?≠some '\'') :
    readValue isSpace value.toList=some value.toList := by
  have hhash : '#'∉value.toList := fun hmem => h ⟨_,hmem,by decide⟩
  have hdouble : '"'∉value.toList := fun hmem => h ⟨_,hmem,by decide⟩
  have hends := (ends_of_strip htrimmed).2
  cases htext : value.toList with
  | nil => rfl
  | cons c rest =>
    rw [htext] at hhash hdouble hquote hends
    have hstart : ¬(c = '"' ∨ c = '\'') := by
      rintro (rfl|rfl)
      · exact hdouble List.mem_cons_self
      · exact hquote rfl
    rw [readValue,if_neg hstart,cutComment_plain hhash,hends]

/-- What starts with a single quote is never read as it is written in an empty
environment. -/
theorem readValue_single {value : String} (hquote : value.toList.head?=some '\'')
    {read : List Char} (hread : readValue isSpace value.toList=some read) :
    interpolate unset read≠value.toList := by
  cases htext : value.toList with
  | nil =>
    rw [htext] at hquote
    cases hquote
  | cons c rest =>
    rw [htext] at hquote hread
    have hc : c = '\'' := Option.some.inj hquote
    subst hc
    simp only [readValue,or_true,if_true] at hread
    split at hread
    · rename_i body after hbody
      split at hread
      · have hdecoded : decodeEscapes (escapesOf '\'') body=read := Option.some.inj hread
        have hlength := quotedBody_length hbody
        have hshorter := decodeEscapes_length_le (escapesOf '\'') body
        have hreplaced := interpolate_unset_length_le read
        rw [hdecoded] at hshorter
        intro hsame
        rw [hsame] at hreplaced
        simp only [List.length_cons] at hreplaced
        omega
      · cases hread
    · cases hread

variable {key : String}

/-- The line of a clean value is read back in every environment exactly when
the value has no reference and no single quote at the start of what is written
as it is. -/
theorem readLine_iff (hkey : ∀ c∈key.toList,ofKey isSpace c=true) {value : String}
    (h : Clean value) :
    (∀ env,readLine isSpace env (key++"="++quoteEnvValue value)=some (key,value)) ↔
      ReadBack value := by
  have hequals : isSpace '='=false := by decide
  have hsame : ∀ text : List Char,some (key,String.ofList text)=some (key,value) ↔
      text=value.toList := by
    intro text
    constructor
    · intro heq
      have hvalue := congrArg String.toList (Prod.mk.inj (Option.some.inj heq)).2
      rwa [String.toList_ofList] at hvalue
    · intro heq
      rw [heq,String.ofList_toList]
  by_cases hwritten : Written value
  · have hblank : ('"'::(value.toList.flatMap escapeChar++[ '"'])).dropWhile isSpace=
        '"'::(value.toList.flatMap escapeChar++[ '"']) :=
      List.dropWhile_cons_of_neg (by decide)
    rw [quoteEnvValue_written hwritten]
    simp only [readLine_eq hkey hequals hblank,readValue_written,Option.map_some,hsame]
    rw [interpolate_eq_iff]
    exact ⟨fun hliteral => ⟨hliteral,fun _ => hwritten⟩,fun hback => hback.1⟩
  · have hline : ∀ env,readLine isSpace env (key++"="++value)=
        (readValue isSpace value.toList).map fun read =>
          (key,String.ofList (interpolate env read)) := by
      intro env
      have heq := @readLine_eq _ env _ value.toList hkey hequals (ends_of_strip h.trimmed).1
      rwa [String.ofList_toList] at heq
    rw [quoteEnvValue_plain hwritten]
    by_cases hquote : value.toList.head?=some '\''
    · constructor
      · intro hread
        have hunset := hread unset
        rw [hline] at hunset
        obtain ⟨read,hvalue,heq⟩ := Option.map_eq_some_iff.mp hunset
        exact absurd ((hsame _).mp (congrArg some heq)) (readValue_single hquote hvalue)
      · intro hback
        exact absurd (hback.2 hquote) hwritten
    · simp only [hline,readValue_plain hwritten h.trimmed hquote,Option.map_some,hsame]
      rw [interpolate_eq_iff]
      exact ⟨fun hliteral => ⟨hliteral,fun hhead => absurd hhead hquote⟩,fun hback => hback.1⟩

end Values

section Files

/-- The mail settings that are quoted. -/
inductive MailKey where
  /-- `SMTP_HOST`. -/
  | host
  /-- `SMTP_USERNAME`. -/
  | username
  /-- `SMTP_PASSWORD`. -/
  | password
  /-- `SMTP_FROM_EMAIL`. -/
  | fromEmail
  /-- `SMTP_FROM_NAME`. -/
  | fromName
  /-- `SUPPORT_EMAIL`. -/
  | supportEmail

/-- The key of a setting. -/
def MailKey.name : MailKey → String
  | .host => "SMTP_HOST"
  | .username => "SMTP_USERNAME"
  | .password => "SMTP_PASSWORD"
  | .fromEmail => "SMTP_FROM_EMAIL"
  | .fromName => "SMTP_FROM_NAME"
  | .supportEmail => "SUPPORT_EMAIL"

/-- The value of a setting before it is quoted. -/
def MailKey.value (compose : List (String×String)) (i : Inputs) : MailKey → String
  | .host => (smtpValues compose i).host
  | .username => (smtpValues compose i).username
  | .password => (smtpValues compose i).password
  | .fromEmail => (smtpValues compose i).fromEmail
  | .fromName => (smtpValues compose i).fromName
  | .supportEmail => composeGet compose "SUPPORT_EMAIL"

/-- Where a password is written. -/
inductive Place where
  /-- The database of the authentication service. -/
  | authDatabase
  /-- The database of the user service. -/
  | userDatabase
  /-- Redis, in the file of a service. -/
  | redis (service : Service)

/-- The file of a place. -/
def Place.service : Place → Service
  | .authDatabase => .auth
  | .userDatabase => .user
  | .redis service => service

/-- The key of a place. -/
def Place.key : Place → String
  | .redis _ => "REDIS_URL"
  | _ => "DATABASE_URL"

/-- The password of a place. -/
def Place.password (p : Passwords) : Place → String
  | .authDatabase => p.authDb
  | .userDatabase => p.userDb
  | .redis _ => p.redis

/-- The URL of a place. -/
def Place.url (p : Passwords) : Place → String
  | .authDatabase => "postgresql+asyncpg://auth_service:"++quotePlus p.authDb++
      "@postgres-auth:5432/auth_service"
  | .userDatabase => "postgresql+asyncpg://user_service:"++quotePlus p.userDb++
      "@postgres-user:5432/user_service"
  | .redis service => redisUrl p.redis service.path

/-- The address of the auth database. -/
@[simp] theorem Place.url_authDatabase (p : Passwords) : Place.authDatabase.url p=
    "postgresql+asyncpg://auth_service:"++quotePlus p.authDb++
      "@postgres-auth:5432/auth_service" := rfl

/-- The address of the user database. -/
@[simp] theorem Place.url_userDatabase (p : Passwords) : Place.userDatabase.url p=
    "postgresql+asyncpg://user_service:"++quotePlus p.userDb++
      "@postgres-user:5432/user_service" := rfl

/-- The address of a service's Redis. -/
@[simp] theorem Place.url_redis (p : Passwords) (service : Service) :
    (Place.redis service).url p=redisUrl p.redis service.path := rfl

variable {i : Inputs} {compose : List (String×String)} {p : Passwords} {files : EnvFiles}

/-- The files are rendered from this compose file and these passwords. -/
structure Rendered (i : Inputs) (compose : List (String×String)) (p : Passwords)
    (files : EnvFiles) : Prop where
  /-- The parsed compose file. -/
  parsed : i.composeEnv.map parseDotenv=some compose
  /-- Its passwords. -/
  given : passwords compose=.ok p
  /-- `main` succeeds. -/
  written : main i=.ok files

/-- The files of a success. -/
theorem Rendered.eq (h : Rendered i compose p files) :
    files .auth=authEnv i compose p ∧ files .user=userEnv i p ∧
      files .gateway=gatewayEnv i compose p := by
  obtain ⟨text,htext,hparsed⟩ := Option.map_eq_some_iff.mp h.parsed
  have hwritten := h.written
  unfold main at hwritten
  rw [htext] at hwritten
  simp only [hparsed,h.given] at hwritten
  split at hwritten
  · cases hwritten
  · have hfiles := Except.ok.inj hwritten
    subst hfiles
    exact ⟨rfl,rfl,rfl⟩

/-- The line of a mail setting is the quoted value. -/
theorem Rendered.mail (h : Rendered i compose p files) (key : MailKey) (rendered : String) :
    some (key.name,rendered)∈files .auth ↔ rendered=quoteEnvValue (key.value compose i) := by
  rw [h.eq.1,authEnv,resolveSmtpForAuthEnv_eq]
  cases key with
  | host => simp [MailKey.name,MailKey.value,quoted]
  | username => simp [MailKey.name,MailKey.value,quoted]
  | password => simp [MailKey.name,MailKey.value,quoted]
  | fromEmail => simp [MailKey.name,MailKey.value,quoted]
  | fromName => simp [MailKey.name,MailKey.value,quoted]
  | supportEmail => simp [MailKey.name,MailKey.value,quoted]

/-- The line of a password is its URL. -/
theorem Rendered.url (h : Rendered i compose p files) (place : Place) (url : String) :
    some (place.key,url)∈files place.service ↔ url=place.url p := by
  obtain ⟨hauth,huser,hgateway⟩ := h.eq
  cases place with
  | authDatabase => simp [Place.service,Place.key,hauth,authEnv]
  | userDatabase => simp [Place.service,Place.key,huser,userEnv]
  | redis service =>
    cases service with
    | auth => simp [Place.service,Place.key,Service.path,hauth,authEnv]
    | user => simp [Place.service,Place.key,Service.path,huser,userEnv]
    | gateway =>
      by_cases hsecure : composeGet compose "REFRESH_COOKIE_SECURE"=""
      · simp [Place.service,Place.key,Service.path,hgateway,gatewayEnv,hsecure]
      · simp [Place.service,Place.key,Service.path,hgateway,gatewayEnv,hsecure]

/-- A mail setting arrives: its line is read back in every environment. -/
def MailArrives (files : EnvFiles) (key : MailKey) (value : String) : Prop :=
  ∀ rendered,some (key.name,rendered)∈files .auth → ∀ env,
    readLine isSpace env (key.name++"="++rendered)=some (key.name,value)

/-- A password arrives: it is what the URL has, percent-decoded. -/
def PasswordArrives (files : EnvFiles) (place : Place) (value : String) : Prop :=
  ∀ url,some (place.key,url)∈files place.service → ∀ replaced,
    unquote replaced (urlPassword url)=value

/-- A clean mail setting arrives exactly when it is read back. -/
theorem Rendered.mailArrives_iff (h : Rendered i compose p files) (key : MailKey)
    (hclean : Clean (key.value compose i)) :
    MailArrives files key (key.value compose i) ↔ ReadBack (key.value compose i) := by
  have hall : key.name.toList.all (ofKey isSpace)=true := by
    cases key with
    | host => decide
    | username => decide
    | password => decide
    | fromEmail => decide
    | fromName => decide
    | supportEmail => decide
  rw [←readLine_iff (List.all_eq_true.mp hall) hclean]
  constructor
  · intro harrives
    exact harrives _ ((h.mail key _).mpr rfl)
  · intro hread rendered hmem
    rw [(h.mail key rendered).mp hmem]
    exact hread

/-- The password of a rendered URL is the quoted one. -/
theorem urlPassword_url (p : Passwords) (place : Place) :
    urlPassword (place.url p)=(quotePlus (place.password p)).toList := by
  cases place with
  | authDatabase =>
    have hname : Plain "auth_service".toList := plain_of_all (by decide)
    have hscheme : ("postgresql+asyncpg:".toList.all fun c => c≠ '/')=true := by decide
    refine urlPassword_quoted p.authDb "postgres-auth:5432/auth_service".toList hscheme hname ?_
    simp
  | userDatabase =>
    have hname : Plain "user_service".toList := plain_of_all (by decide)
    have hscheme : ("postgresql+asyncpg:".toList.all fun c => c≠ '/')=true := by decide
    refine urlPassword_quoted p.userDb "postgres-user:5432/user_service".toList hscheme hname ?_
    simp
  | redis service =>
    have hname : Plain [] := nofun
    have hscheme : ("redis:".toList.all fun c => c≠ '/')=true := by decide
    refine urlPassword_quoted p.redis ("redis:6379/"++service.path).toList hscheme hname ?_
    simp [redisUrl]

/-- A password arrives exactly when it has no space. -/
theorem Rendered.passwordArrives_iff (h : Rendered i compose p files) (place : Place) :
    PasswordArrives files place (place.password p) ↔ ' '∉(place.password p).toList := by
  constructor
  · intro harrives
    have hunquoted := harrives _ ((h.url place _).mpr rfl) fun _ => ""
    rw [urlPassword_url] at hunquoted
    exact (unquote_quotePlus_iff _ _).mp hunquoted
  · intro hspace url hmem replaced
    rw [(h.url place url).mp hmem,urlPassword_url]
    exact (unquote_quotePlus_iff _ _).mpr hspace

/-- Every clean mail setting of rendered files arrives exactly when it has no
reference and is not written as it is behind a single quote, and every clean
password exactly when it has no space. -/
theorem rendered_secrets_iff (h : Rendered i compose p files) :
    (∀ key : MailKey,Clean (key.value compose i) →
      (MailArrives files key (key.value compose i) ↔ ReadBack (key.value compose i))) ∧
    ∀ place : Place,Clean (place.password p) →
      (PasswordArrives files place (place.password p) ↔ ' '∉(place.password p).toList) :=
  ⟨h.mailArrives_iff,fun place _ => h.passwordArrives_iff place⟩

/-- A compose file with a reference in a password and a space in another. -/
def referenceCompose : String :=
  "AUTH_DB_PASSWORD=a\nUSER_DB_PASSWORD=u\nREDIS_PASSWORD=r s\nSMTP_PASSWORD=p$\x7bx\x7d"

/-- The inputs with this compose file. -/
def referenceInputs : Inputs := {SharedRedis.sampleInputs with composeEnv := some referenceCompose}

/-- Its entries. -/
theorem parse_reference : parseDotenv referenceCompose=
    [("AUTH_DB_PASSWORD","a"),("USER_DB_PASSWORD","u"),("REDIS_PASSWORD","r s"),
      ("SMTP_PASSWORD","p$\x7bx\x7d")] := by
  decide +kernel

/-- The files of these inputs. -/
theorem exists_rendered_reference : ∃ files,
    Rendered referenceInputs (parseDotenv referenceCompose) ⟨"a","u","r s"⟩ files := by
  have hgiven : passwords (parseDotenv referenceCompose)=.ok ⟨"a","u","r s"⟩ := by
    rw [parse_reference]
    rfl
  have hsecrets : (requiredSecrets.find? fun name => (referenceInputs.secrets name).isNone)=none := by
    decide
  have htext : referenceInputs.composeEnv=some referenceCompose := rfl
  cases hmain : main referenceInputs with
  | ok files => exact ⟨files,rfl,hgiven,hmain⟩
  | error message =>
    simp only [main,htext,hsecrets,hgiven] at hmain
    cases hmain

/-- Its mail password. -/
theorem password_reference : MailKey.password.value (parseDotenv referenceCompose)
    referenceInputs="p$\x7bx\x7d" := by
  rw [parse_reference]
  decide +kernel

/-- The decidable checks give a clean value. -/
theorem clean_of_all {value : String} (hne : value≠"") (hstrip : strip value=value)
    (hall : (value.toList.all fun c => c≠ '\n' && c≠ '\r')=true) : Clean value :=
  ⟨hne,hstrip,fun c hc => by simpa using List.all_eq_true.mp hall c hc⟩

/-- A value that looks like a reference is clean. -/
theorem clean_reference : Clean "p$\x7bx\x7d" :=
  clean_of_all (by decide) (by decide +kernel) (by decide)

/-- In these files the password of a database arrives and that of the mail
server does not. -/
theorem rendered_secrets_reference : ∃ files,
    main referenceInputs=.ok files ∧ PasswordArrives files .authDatabase "a" ∧
      ¬MailArrives files .password "p$\x7bx\x7d" := by
  obtain ⟨files,hrendered⟩ := exists_rendered_reference
  obtain ⟨hmail,hpassword⟩ := rendered_secrets_iff hrendered
  have hclean : Clean (MailKey.password.value (parseDotenv referenceCompose) referenceInputs) := by
    rw [password_reference]
    exact clean_reference
  have hsecret := hmail .password hclean
  rw [password_reference] at hsecret
  refine ⟨files,hrendered.written,?_,fun harrives => ?_⟩
  · exact (hpassword .authDatabase (clean_of_all (by decide) (by decide +kernel) (by decide))).mpr (by decide)
  · have hnone := (hsecret.mp harrives).1 _ (List.suffix_cons 'p' _)
    exact absurd hnone (by decide)

/-- A mail password with a reference and a Redis password with a space are
lost. -/
theorem reference_lost : ∃ files,main referenceInputs=.ok files ∧
    Clean (MailKey.password.value (parseDotenv referenceCompose) referenceInputs) ∧
    ¬MailArrives files .password
      (MailKey.password.value (parseDotenv referenceCompose) referenceInputs) ∧
    Clean "r s" ∧ ¬PasswordArrives files (.redis .gateway) "r s" := by
  obtain ⟨files,hrendered⟩ := exists_rendered_reference
  have hclean : Clean (MailKey.password.value (parseDotenv referenceCompose) referenceInputs) := by
    rw [password_reference]
    exact clean_reference
  refine ⟨files,hrendered.written,hclean,fun harrives => ?_,
    clean_of_all (by decide) (by decide +kernel) (by decide),fun harrives => ?_⟩
  · have hback := (hrendered.mailArrives_iff .password hclean).mp harrives
    rw [password_reference] at hback
    exact absurd (hback.1 _ (List.suffix_cons 'p' _)) (by decide)
  · have hspace := (hrendered.passwordArrives_iff (.redis .gateway)).mp harrives
    exact absurd hspace (by decide)

end Files

end BackendPlatform.RenderedSecrets
