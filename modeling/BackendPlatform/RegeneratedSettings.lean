import BackendPlatform.DotenvFiles
import BackendPlatform.SharedRedis

/-!
# Regenerating the development settings

`generate_dev_env.py --force` writes a fresh `.env` for the authentication
service and carries the `SMTP_*` lines of the old one over. A line is read
without the quotes around its value and written back without any, so what the
new file has for a key is its old value only when the bare text reads as it.
-/

set_option autoImplicit false

namespace BackendPlatform.RegeneratedSettings

open DotenvValues DotenvFiles
open SharedRedis (isSpace isBreak strip stripChars entry)

section Texts

/-- The lines of a text. A carriage return and a line feed end one line, and
the end of the last line starts no other one. -/
def linesOf : List Char → List (List Char)
  | [] => []
  | [c] => if isBreak c then [[]] else [[c]]
  | c::d::rest =>
    if c = '\r' ∧ d = '\n' then []::linesOf rest
    else if isBreak c then []::linesOf (d::rest)
    else (linesOf (d::rest)).modifyHead (c::·)

/-- `str.splitlines`. -/
def splitlines (text : String) : List String := (linesOf text.toList).map String.ofList

/-- A setting of the authentication service's mail client. -/
def IsSmtp (key : String) : Prop := "SMTP_".toList<+:key.toList

instance (key : String) : Decidable (IsSmtp key) :=
  inferInstanceAs (Decidable ("SMTP_".toList<+:key.toList))

/-- The text before the first equals sign: `partition("=")[0]`. -/
def beforeEquals (line : String) : String := String.ofList (line.toList.takeWhile (· ≠ '='))

/-- The text after the first equals sign: `partition("=")[2]`. -/
def afterEquals (line : String) : String :=
  String.ofList ((line.toList.dropWhile (· ≠ '=')).drop 1)

/-- A value without the blanks and the quotes around it. -/
def bare (value : String) : String :=
  stripChars (· = '\'') (stripChars (· = '"') (strip value))

/-- One line in `_smtp_key_values_from_env_text`. -/
def smtpKeyValue (raw : String) : Option (String×String) :=
  let line := strip raw
  if line="" ∨ line.toList.head?=some '#' then none
  else if ¬"SMTP_".toList<+:line.toList ∨ '='∉line.toList then none
  else
    let key := strip (beforeEquals line)
    let val := bare (afterEquals line)
    if val="" then none else some (key,val)

/-- `_smtp_key_values_from_env_text`: entries in order, later ones win. -/
def smtpKeyValuesFromEnvText (raw : String) : List (String×String) :=
  (splitlines raw).filterMap smtpKeyValue

/-- One line in `_merge_smtp_into_auth_env`. -/
def mergeLine (smtp : List (String×String)) (line : String) : String :=
  if '='∈line.toList then
    let key := strip (beforeEquals line)
    match entry smtp key with
    | some value => key++"="++value
    | none => line
  else line

/-- `_merge_smtp_into_auth_env`. -/
def mergeSmtpIntoAuthEnv (content : String) (smtp : List (String×String)) : String :=
  if smtp=[] then content
  else "\n".intercalate ((splitlines content).map (mergeLine smtp))++"\n"

end Texts

section Template

/-- The characters of URL-safe Base64. -/
def urlSafe : List Char :=
  "ABCDEFGHIJKLMNOPQRSTUVWXYZabcdefghijklmnopqrstuvwxyz0123456789-_=".toList

/-- The characters of a PEM block inside its lines. -/
def armour : List Char :=
  "ABCDEFGHIJKLMNOPQRSTUVWXYZabcdefghijklmnopqrstuvwxyz0123456789+/=- ".toList

/-- A generated secret. -/
structure Secret where
  /-- Its text. -/
  text : String
  /-- It is URL-safe Base64. -/
  chars : text.toList.all (· ∈ urlSafe)=true

/-- A generated key. -/
structure Pem where
  /-- Its text. -/
  text : String
  /-- It has the lines of a PEM block. -/
  chars : (text.toList.all fun c => c = '\n' || c∈armour)=true

/-- What a run generates for the authentication service. -/
structure Generated where
  authDbPassword : Secret
  redisPassword : Secret
  refreshPepper : Secret
  authPrivacyPepper : Secret
  resetPepper : Secret
  fernetKey : Secret
  privatePem : Pem
  publicPem : Pem

/-- `_escape_multiline`. -/
def escapeMultiline (value : String) : String :=
  String.ofList (value.toList.flatMap fun c => if c = '\n' then [ '\\', 'n'] else [c])

/-- A line of the template: a key with its value, or nothing. -/
abbrev Line := Option (String×String)

/-- A line as it is written. -/
def render : Line → String
  | none => ""
  | some (key,value) => key++"="++value

variable (g : Generated)

/-- The template before the mail settings. -/
def linesBefore : List Line :=
  [some ("SERVICE_NAME","auth-service"),
    some ("SERVICE_ENV","development"),
    some ("SERVICE_PORT","8001"),
    some ("CORS_ALLOWED_ORIGINS","http://localhost:3000,http://localhost:8000"),
    some ("TRUSTED_PROXY_IPS","172.16.0.0/12"),
    none,
    some ("DATABASE_URL",
      "postgresql+asyncpg://auth_service:"++g.authDbPassword.text++
        "@postgres-auth:5432/auth_service"),
    some ("REDIS_URL","redis://:"++g.redisPassword.text++"@redis:6379/0"),
    none,
    some ("JWT_ALGORITHM","RS256"),
    some ("JWT_ISSUER","backend-platform"),
    some ("JWT_AUDIENCE","backend-clients"),
    some ("JWT_ACCESS_TTL_SECONDS","900"),
    some ("JWT_REFRESH_TTL_SECONDS","2592000"),
    some ("JWT_PRIVATE_KEY","\""++escapeMultiline g.privatePem.text++"\""),
    some ("JWT_PUBLIC_KEY","\""++escapeMultiline g.publicPem.text++"\""),
    none,
    some ("REFRESH_TOKEN_HASH_PEPPER",g.refreshPepper.text),
    some ("PRIVACY_KEY_PEPPER",g.authPrivacyPepper.text),
    some ("PASSWORD_RESET_TOKEN_PEPPER",g.resetPepper.text),
    none,
    some ("TOTP_ISSUER","Backend Platform"),
    some ("TOTP_ENCRYPTION_KEY",g.fernetKey.text),
    some ("TOTP_CODE_DIGITS","6"),
    some ("TOTP_INTERVAL_SECONDS","30"),
    none,
    some ("LOGIN_CHALLENGE_TTL_SECONDS","300"),
    some ("PASSWORD_RESET_TOKEN_TTL_SECONDS","900")]

/-- The mail settings of the template. -/
def smtpTemplate : List (String×String) :=
  [("SMTP_HOST",""),
    ("SMTP_PORT","587"),
    ("SMTP_USERNAME",""),
    ("SMTP_PASSWORD",""),
    ("SMTP_USE_TLS","true"),
    ("SMTP_FROM_EMAIL","")]

/-- The template after the mail settings. -/
def linesAfter : List Line :=
  [none,
    some ("RATE_LIMIT_LOGIN_PER_MINUTE","10"),
    some ("RATE_LIMIT_2FA_PER_MINUTE","10"),
    some ("RATE_LIMIT_REFRESH_PER_MINUTE","30"),
    some ("RATE_LIMIT_REGISTER_PER_MINUTE","5"),
    some ("RATE_LIMIT_PASSWORD_RESET_PER_MINUTE","5"),
    none,
    some ("BRUTE_FORCE_LOGIN_MAX_ATTEMPTS","5"),
    some ("BRUTE_FORCE_LOGIN_WINDOW_SECONDS","300"),
    some ("BRUTE_FORCE_LOGIN_LOCK_SECONDS","900"),
    some ("BRUTE_FORCE_2FA_MAX_ATTEMPTS","5"),
    some ("BRUTE_FORCE_2FA_WINDOW_SECONDS","300"),
    some ("BRUTE_FORCE_2FA_LOCK_SECONDS","900"),
    some ("BRUTE_FORCE_PASSWORD_RESET_MAX_ATTEMPTS","5"),
    some ("BRUTE_FORCE_PASSWORD_RESET_WINDOW_SECONDS","300"),
    some ("BRUTE_FORCE_PASSWORD_RESET_LOCK_SECONDS","900"),
    none,
    some ("ARGON2_TIME_COST","3"),
    some ("ARGON2_MEMORY_COST","65536"),
    some ("ARGON2_PARALLELISM","4"),
    some ("ARGON2_HASH_LENGTH","32"),
    some ("ARGON2_SALT_LENGTH","16")]

/-- The lines of the template. -/
def authLines : List Line := linesBefore g++(smtpTemplate.map some++linesAfter)

/-- The fresh `.env` of the authentication service. -/
def authEnv : String := "\n".intercalate ((authLines g).map render++[""])

/-- What `main` writes with `--force` where the old file has the text. -/
def regenerated (raw : String) : String :=
  mergeSmtpIntoAuthEnv (authEnv g) (smtpKeyValuesFromEnvText raw)

/-- The settings are kept: every mail setting of the old file has its value in
the new one, and the other lines are those of the template. -/
structure KeepsSmtp (env : String → Option String) (g : Generated) (raw : String) : Prop where
  /-- The grammar reads a value that is not empty as before. -/
  values : ∀ key value,IsSmtp key → valueOf isSpace env raw key=some value → value≠"" →
    valueOf isSpace env (regenerated g raw) key=some value
  /-- Another line stays where it is. -/
  others : ∀ (n : ℕ) (line : String),(splitlines (authEnv g))[n]?=some line → ¬IsSmtp line →
    (splitlines (regenerated g raw))[n]?=some line

end Template

section Lines

/-- A text of whole lines. -/
def written (lines : List String) : List Char := lines.flatMap fun line => line.toList++[ '\n']

/-- A text inside a line. -/
def Single (text : String) : Prop := ∀ c∈text.toList,isBreak c=false

/-- Two lists of lines are written one after the other. -/
theorem written_append (front back : List String) :
    written (front++back)=written front++written back := List.flatMap_append

/-- A line is written with its line end. -/
theorem written_cons (line : String) (lines : List String) :
    written (line::lines)=line.toList++ '\n'::written lines := by
  simp [written]

/-- Lines joined and closed. -/
theorem intercalate_written {lines : List String} (h : lines≠[]) :
    ("\n".intercalate lines++"\n").toList=written lines := by
  have hbreak : "\n".toList=[ '\n'] := by decide
  induction lines with
  | nil => exact absurd rfl h
  | cons line rest ih =>
    rw [written_cons]
    by_cases hrest : rest=[]
    · subst hrest
      simp [written]
    · rw [String.intercalate_cons_of_ne_nil hrest,String.append_assoc,String.toList_append,
        ih hrest,String.toList_append,hbreak]
      simp

/-- A character inside a line stays in it. -/
theorem linesOf_cons {c : Char} {text : List Char} (hc : isBreak c=false) (h : text≠[]) :
    linesOf (c::text)=(linesOf text).modifyHead (c::·) := by
  match text with
  | [] => exact absurd rfl h
  | d::rest =>
    have hreturn : c≠ '\r' := by
      rintro rfl
      exact absurd hc (by decide)
    rw [linesOf,if_neg fun hboth => hreturn hboth.1,if_neg (by simp [hc])]

/-- A line ends at its line feed. -/
theorem linesOf_line {line : List Char} (h : ∀ c∈line,isBreak c=false) (rest : List Char) :
    linesOf (line++ '\n'::rest)=line::linesOf rest := by
  induction line with
  | nil =>
    have hfeed : isBreak '\n'=true := by decide
    match rest with
    | [] => simp [linesOf,hfeed]
    | d::rest =>
      have hne : '\n'≠ '\r' := by decide
      rw [List.nil_append,linesOf,if_neg fun hboth => hne hboth.1,if_pos hfeed]
  | cons c line ih =>
    have hrest := ih fun d hd => h d (List.mem_cons_of_mem c hd)
    rw [List.cons_append,linesOf_cons (h c List.mem_cons_self) (by simp),hrest]
    rfl

/-- The lines of a text are inside lines. -/
theorem linesOf_single {text line : List Char} (h : line∈linesOf text) :
    ∀ c∈line,isBreak c=false := by
  fun_induction linesOf text generalizing line with
  | case1 => cases h
  | case2 =>
    rw [List.mem_singleton.mp h]
    intro c hc
    cases hc
  | case3 d hd =>
    rw [List.mem_singleton.mp h]
    intro c hc
    rw [List.mem_singleton.mp hc]
    exact (Bool.not_eq_true _).mp hd
  | case4 c d rest _ ih =>
    rcases List.mem_cons.mp h with rfl|hrest
    · intro c hc
      cases hc
    · exact ih hrest
  | case5 c d rest _ _ ih =>
    rcases List.mem_cons.mp h with rfl|hrest
    · intro c hc
      cases hc
    · exact ih hrest
  | case6 c d rest _ hc ih =>
    cases hlines : linesOf (d::rest) with
    | nil =>
      rw [hlines] at h
      cases h
    | cons first others =>
      rw [hlines] at h ih
      rcases List.mem_cons.mp h with rfl|hother
      · intro e he
        rcases List.mem_cons.mp he with rfl|he
        · exact (Bool.not_eq_true _).mp hc
        · exact ih List.mem_cons_self e he
      · exact ih (List.mem_cons_of_mem first hother)

/-- Whole lines are read back. -/
theorem splitlines_written {text : String} {lines : List String} (htext : text.toList=written lines)
    (h : ∀ line∈lines,Single line) : splitlines text=lines := by
  have hlines : linesOf (written lines)=lines.map String.toList := by
    clear htext
    induction lines with
    | nil => rfl
    | cons line rest ih =>
      rw [written_cons,linesOf_line (h line List.mem_cons_self),
        ih fun other hother => h other (List.mem_cons_of_mem line hother)]
      rfl
  rw [splitlines,htext,hlines,List.map_map]
  have hself : String.ofList∘String.toList=id := funext fun line => String.ofList_toList
  rw [hself,List.map_id]

/-- A line of a text holds no line end. -/
theorem splitlines_single {text line : String} (h : line∈splitlines text) : Single line := by
  obtain ⟨chars,hchars,rfl⟩ := List.mem_map.mp h
  intro c hc
  rw [String.toList_ofList] at hc
  exact linesOf_single hchars c hc

/-- A character inside a line ends none for the grammar. -/
theorem inside_of_single {text : String} (h : Single text) : Inside text.toList := by
  intro c hc
  rw [Bool.eq_false_iff]
  intro hline
  have hbreak : isBreak c=true := by
    rcases (Bool.or_eq_true _ _).mp hline with hfeed|hreturn
    · rw [of_decide_eq_true hfeed]
      decide
    · rw [of_decide_eq_true hreturn]
      decide
  rw [h c hc] at hbreak
  cases hbreak

end Lines

section Leaving

/-- The text a line leaves for a mail setting: what is after the first equals
sign, without the blanks and the quotes around it. -/
structure Leaves (line key text : String) : Prop where
  /-- The line is one of a mail setting. -/
  prefixed : IsSmtp (strip line)
  /-- The key and the text are on the two sides of the equals sign. -/
  sides : ∃ name value : String,(strip line).toList=name.toList++ '='::value.toList ∧
    '='∉name.toList ∧ strip name=key ∧ bare value=text
  /-- Something is left. -/
  nonempty : text≠""

/-- The part before the first equals sign is the name. -/
theorem beforeEquals_eq {line : String} {name value : List Char}
    (hline : line.toList=name++ '='::value) (hname : '='∉name) :
    beforeEquals line=String.ofList name := by
  have hall : ∀ c∈name,decide (c≠ '=')=true := fun c hc =>
    decide_eq_true fun heq => hname (heq ▸ hc)
  rw [beforeEquals,hline,List.takeWhile_append_of_pos hall,
    List.takeWhile_cons_of_neg (by decide),List.append_nil]

/-- The part after the first equals sign is the value. -/
theorem afterEquals_eq {line : String} {name value : List Char}
    (hline : line.toList=name++ '='::value) (hname : '='∉name) :
    afterEquals line=String.ofList value := by
  have hall : ∀ c∈name,decide (c≠ '=')=true := fun c hc =>
    decide_eq_true fun heq => hname (heq ▸ hc)
  rw [afterEquals,hline,List.dropWhile_append_of_pos hall,
    List.dropWhile_cons_of_neg (by decide)]
  rfl

/-- A text with an equals sign has two sides. -/
theorem sides_of_mem {line : String} (h : '='∈line.toList) :
    line.toList=(beforeEquals line).toList++ '='::(afterEquals line).toList ∧
      '='∉(beforeEquals line).toList := by
  obtain ⟨name,value,hsplit,hname⟩ := List.eq_append_cons_of_mem h
  exact ⟨by rw [beforeEquals_eq hsplit hname,afterEquals_eq hsplit hname]; simpa using hsplit,
    by simpa [beforeEquals_eq hsplit hname] using hname⟩

/-- The extractor takes what a line leaves. -/
theorem smtpKeyValue_eq_some {line key text : String} :
    smtpKeyValue line=some (key,text) ↔ Leaves line key text := by
  constructor
  · intro h
    simp only [smtpKeyValue] at h
    split at h
    · cases h
    · split at h
      · cases h
      · rename_i hkept
        split at h
        · cases h
        · rename_i hnonempty
          rw [not_or,not_not,not_not] at hkept
          obtain ⟨hsides,hname⟩ := sides_of_mem hkept.2
          obtain ⟨rfl,rfl⟩ := Prod.mk.inj (Option.some.inj h)
          exact ⟨hkept.1,⟨_,_,hsides,hname,rfl,rfl⟩,hnonempty⟩
  · rintro ⟨hmail,⟨name,value,hsides,hname,rfl,rfl⟩,hnonempty⟩
    obtain ⟨tail,htail⟩ := hmail
    have hstart : (strip line).toList.head?=some 'S' := by
      rw [←htail]
      rfl
    have hempty : strip line≠"" := by
      intro hempty
      rw [hempty] at hstart
      cases hstart
    have hequals : '='∈(strip line).toList := by
      rw [hsides]
      exact List.mem_append_right _ List.mem_cons_self
    have hskip : ¬(strip line="" ∨ (strip line).toList.head?=some '#') := by
      rw [hstart]
      rintro (hline|hhash)
      · exact hempty hline
      · exact absurd (Option.some.inj hhash) (by decide)
    have hkept : ¬(¬"SMTP_".toList<+:(strip line).toList ∨ '='∉(strip line).toList) := by
      rw [not_or,not_not,not_not]
      exact ⟨⟨tail,htail⟩,hequals⟩
    simp only [smtpKeyValue,if_neg hskip,if_neg hkept,beforeEquals_eq hsides hname,
      afterEquals_eq hsides hname,String.ofList_toList,if_neg hnonempty]

/-- Stripping takes characters away. -/
theorem mem_of_mem_stripChars {p : Char → Bool} {text : String} {c : Char}
    (h : c∈(stripChars p text).toList) : c∈text.toList := by
  rw [stripChars,String.toList_ofList,List.mem_reverse] at h
  have hmem := (List.dropWhile_suffix p).subset h
  exact (List.dropWhile_suffix p).subset (List.mem_reverse.mp hmem)

/-- A text without the stripped characters is kept. -/
theorem stripChars_eq_self {p : Char → Bool} {text : String} (h : ∀ c∈text.toList,p c=false) :
    stripChars p text=text := by
  have hkeep : ∀ chars : List Char,(∀ c∈chars,p c=false) → chars.dropWhile p=chars := by
    intro chars hchars
    cases chars with
    | nil => rfl
    | cons c rest => exact List.dropWhile_cons_of_neg (by simp [hchars c List.mem_cons_self])
  have hreverse : ∀ c∈text.toList.reverse,p c=false :=
    fun c hc => h c (List.mem_reverse.mp hc)
  rw [stripChars,hkeep _ h,hkeep _ hreverse,List.reverse_reverse,String.ofList_toList]

/-- A key keeps its prefix when it is stripped. -/
theorem isSmtp_strip {name : String} (h : IsSmtp name) : IsSmtp (strip name) := by
  obtain ⟨tail,htail⟩ := h
  have hfront : ("SMTP_".toList++tail).dropWhile isSpace="SMTP_".toList++tail :=
    List.dropWhile_cons_of_neg (by decide)
  have hback : ("SMTP_".toList++tail).reverse.dropWhile isSpace=
      tail.reverse.dropWhile isSpace++"SMTP_".toList.reverse := by
    have hkeep : "SMTP_".toList.reverse.dropWhile isSpace="SMTP_".toList.reverse := by decide
    rw [List.reverse_append,List.dropWhile_append,hkeep]
    split
    · rename_i hnil
      rw [List.isEmpty_iff.mp hnil]
      rfl
    · rfl
  refine ⟨(tail.reverse.dropWhile isSpace).reverse,?_⟩
  rw [strip,stripChars,←htail,hfront,hback,List.reverse_append,List.reverse_reverse]
  exact String.toList_ofList.symm

/-- What is left belongs to a mail setting. -/
theorem Leaves.isSmtp {line key text : String} (h : Leaves line key text) : IsSmtp key := by
  obtain ⟨name,value,hsides,hname,rfl,_⟩ := h.sides
  have hstart := h.prefixed
  rw [IsSmtp,hsides] at hstart
  refine isSmtp_strip ?_
  by_cases hlength : "SMTP_".toList.length≤name.toList.length
  · exact List.prefix_of_prefix_length_le hstart (List.prefix_append _ _) hlength
  · have hwhole : name.toList++[ '=']<+:name.toList++ '='::value.toList := ⟨value.toList,by simp⟩
    have hshort : name.toList++[ '=']<+:"SMTP_".toList := by
      refine List.prefix_of_prefix_length_le hwhole hstart ?_
      rw [List.length_append,List.length_singleton]
      omega
    have hequals : '='∈"SMTP_".toList :=
      hshort.subset (List.mem_append_right _ (List.mem_singleton_self _))
    exact absurd hequals (by decide)

/-- What is left of a line is inside it. -/
theorem Leaves.single {line key text : String} (h : Leaves line key text) (hline : Single line) :
    Single text := by
  obtain ⟨name,value,hsides,_,_,rfl⟩ := h.sides
  intro c hc
  have hvalue : c∈value.toList :=
    mem_of_mem_stripChars (mem_of_mem_stripChars (mem_of_mem_stripChars hc))
  have hstrip : c∈(strip line).toList := by
    rw [hsides]
    exact List.mem_append_right _ (List.mem_cons_of_mem _ hvalue)
  exact hline c (mem_of_mem_stripChars hstrip)

end Leaving

section Keys

/-- A key that needs no quotes. -/
def plain (key : String) : Bool :=
  key.toList≠[] && key.toList.all (ofKey isSpace) && key.toList.head?≠some '\''

/-- The decidable check gives a plain key. -/
theorem plainKey {key : String} (h : plain key=true) : PlainKey isSpace key.toList := by
  obtain ⟨hboth,hquote⟩ := (Bool.and_eq_true _ _).mp h
  obtain ⟨hne,hall⟩ := (Bool.and_eq_true _ _).mp hboth
  exact ⟨of_decide_eq_true hne,List.all_eq_true.mp hall,of_decide_eq_true hquote⟩

/-- The characters of a key are no white space. -/
theorem PlainKey.visible {key : String} (h : PlainKey isSpace key.toList) :
    ∀ c∈key.toList,isSpace c=false := by
  intro c hc
  have hkey := h.chars c hc
  simp only [ofKey,Bool.and_eq_true] at hkey
  simpa using hkey.2

/-- A plain key holds no equals sign. -/
theorem PlainKey.equals {key : String} (h : PlainKey isSpace key.toList) : '='∉key.toList := by
  intro hmem
  have hkey := h.chars '=' hmem
  simp [ofKey] at hkey

/-- The end of a line is white space. -/
theorem isSpace_of_isBreak {c : Char} (h : isBreak c=true) : isSpace c=true := by
  have hbreaks : c.toNat∈[10,11,12,13,28,29,30,133,8232,8233] := of_decide_eq_true h
  have hspaces : c.toNat∈[9,10,11,12,13,28,29,30,31,32,133,160,5760,8232,8233,8239,8287,12288] :=
    (by decide : [10,11,12,13,28,29,30,133,8232,8233]⊆
      [9,10,11,12,13,28,29,30,31,32,133,160,5760,8232,8233,8239,8287,12288]) hbreaks
  rw [isSpace,decide_eq_true hspaces,Bool.true_or]

/-- A plain key is on one line. -/
theorem PlainKey.single {key : String} (h : PlainKey isSpace key.toList) : Single key := by
  intro c hc
  rw [Bool.eq_false_iff]
  intro hbreak
  have hvisible := PlainKey.visible h c hc
  rw [isSpace_of_isBreak hbreak] at hvisible
  cases hvisible

/-- Two texts on one line make one. -/
theorem Single.append {front back : String} (hfront : Single front) (hback : Single back) :
    Single (front++back) := by
  intro c hc
  rw [String.toList_append] at hc
  rcases List.mem_append.mp hc with hc|hc
  · exact hfront c hc
  · exact hback c hc

/-- A line with a key and a value. -/
theorem assignment_toList (key value : String) :
    (key++"="++value).toList=key.toList++ '='::value.toList := by
  simp

/-- An assignment of one-line parts is one line. -/
theorem Single.assignment {key value : String} (hkey : PlainKey isSpace key.toList)
    (hvalue : Single value) : Single (key++"="++value) := by
  have hequals : Single "=" := by
    intro c hc
    rw [List.mem_singleton.mp (hc : c∈[ '='])]
    decide
  exact ((PlainKey.single hkey).append hequals).append hvalue

/-- A line of the template takes the value that was kept for its key. -/
theorem mergeLine_assignment (smtp : List (String×String)) {key : String} (value : String)
    (h : PlainKey isSpace key.toList) :
    mergeLine smtp (key++"="++value)=key++"="++(entry smtp key).getD value := by
  have hmem : '='∈(key++"="++value).toList := by
    rw [assignment_toList]
    exact List.mem_append_right _ List.mem_cons_self
  have hkey : strip (beforeEquals (key++"="++value))=key := by
    rw [beforeEquals_eq (assignment_toList key value) (PlainKey.equals h),String.ofList_toList]
    exact stripChars_eq_self (PlainKey.visible h)
  simp only [mergeLine,if_pos hmem,hkey]
  cases entry smtp key with
  | none => rfl
  | some kept => rfl

end Keys

section Fresh

/-- A text without line ends and quotes. -/
def Safe (text : String) : Prop := ∀ c∈text.toList,isBreak c=false ∧ c≠ '"' ∧ c≠ '\''

/-- A character that needs no quotes. -/
def safeChar (c : Char) : Bool := !isBreak c && c≠ '"' && c≠ '\''

/-- The decidable check gives a safe text. -/
theorem safe_of_all {text : String} (h : text.toList.all safeChar=true) : Safe text := by
  intro c hc
  have hchar := List.all_eq_true.mp h c hc
  simp only [safeChar,Bool.and_eq_true,Bool.not_eq_true',decide_eq_true_eq] at hchar
  exact ⟨hchar.1.1,hchar.1.2,hchar.2⟩

/-- Two safe texts make one. -/
theorem Safe.append {front back : String} (hfront : Safe front) (hback : Safe back) :
    Safe (front++back) := by
  intro c hc
  rw [String.toList_append] at hc
  rcases List.mem_append.mp hc with hc|hc
  · exact hfront c hc
  · exact hback c hc

/-- A generated secret needs no quotes. -/
theorem Secret.safe (secret : Secret) : Safe secret.text := by
  have hall : urlSafe.all safeChar=true := by decide +kernel
  refine safe_of_all (List.all_eq_true.mpr fun c hc => ?_)
  have hsafe : c∈urlSafe := of_decide_eq_true (List.all_eq_true.mp secret.chars c hc)
  exact List.all_eq_true.mp hall c hsafe

/-- The characters of a key are line feeds and armour. -/
theorem Pem.mem (pem : Pem) : ∀ c∈pem.text.toList,c = '\n' ∨ c∈armour := by
  intro c hc
  have hchar := List.all_eq_true.mp pem.chars c hc
  simpa using hchar

/-- A character before a text that its quote closes. -/
theorem closes_cons {q c : Char} {text : List Char} (hslash : c≠ '\\')
    (h : closes q text=true) : closes q (c::text)=true := by
  match text with
  | [] => cases h
  | d::rest =>
    by_cases hc : c=q
    · rw [closes,if_pos hc]
    · rw [closes,if_neg hc,if_neg fun hboth => hslash hboth.1]
      exact h

/-- An escaped key in quotes is closed. -/
theorem closes_escaped {chars : List Char} (h : ∀ c∈chars,c = '\n' ∨ c∈armour) :
    closes '"' ((chars.flatMap fun c => if c = '\n' then [ '\\', 'n'] else [c])++[ '"'])=true := by
  induction chars with
  | nil => decide
  | cons c rest ih =>
    have hrest := ih fun d hd => h d (List.mem_cons_of_mem c hd)
    rw [List.flatMap_cons,List.append_assoc]
    by_cases hfeed : c = '\n'
    · rw [if_pos hfeed]
      have hn : 'n'≠ '\\' := by decide
      have hquotes : '\\'≠ '"' ∧ 'n'≠ '"' := by decide
      simp only [List.cons_append,List.nil_append]
      rw [closes,if_neg hquotes.1,if_neg fun hboth => hquotes.2 hboth.2]
      exact closes_cons hn hrest
    · have harmour : armour.all (· ≠ '\\')=true := by decide +kernel
      have hslash : c≠ '\\' := by
        rcases h c List.mem_cons_self with hline|hmem
        · exact absurd hline hfeed
        · exact of_decide_eq_true (List.all_eq_true.mp harmour c hmem)
      rw [if_neg hfeed]
      exact closes_cons hslash hrest

/-- A line of the template around the mail settings. -/
structure Settled (line : Line) : Prop where
  /-- Its key needs no quotes. -/
  key : ∀ k v,line=some (k,v) → PlainKey isSpace k.toList
  /-- It is no mail setting. -/
  other : ∀ k v,line=some (k,v) → ¬IsSmtp k
  /-- Its value is a single line. -/
  single : ∀ k v,line=some (k,v) → Single v
  /-- A quote at the start of its value is closed in it. -/
  closed : ∀ k v,line=some (k,v) → ∀ rest,Contained isSpace v.toList rest

/-- A blank line is settled. -/
theorem settled_none : Settled none where
  key _ _ h := by cases h
  other _ _ h := by cases h
  single _ _ h := by cases h
  closed _ _ h := by cases h

/-- A value without quotes has nothing to close. -/
theorem settled_safe {key value : String} (hkey : (plain key && !decide (IsSmtp key))=true)
    (hvalue : Safe value) : Settled (some (key,value)) := by
  obtain ⟨hplain,hother⟩ := (Bool.and_eq_true _ _).mp hkey
  refine ⟨?_,?_,?_,?_⟩
  · rintro _ _ ⟨⟩
    exact plainKey hplain
  · rintro _ _ ⟨⟩
    simpa using hother
  · rintro _ _ ⟨⟩ c hc
    exact (hvalue c hc).1
  · rintro _ _ ⟨⟩ rest q body hstart hquote
    have hmem : q∈value.toList := by
      refine (List.dropWhile_suffix isSpace).subset ?_
      rw [hstart]
      exact List.mem_cons_self
    rcases hquote with rfl|rfl
    · exact absurd rfl (hvalue _ hmem).2.1
    · exact absurd rfl (hvalue _ hmem).2.2

/-- A line without a generated value. -/
def literal : Line → Bool
  | none => true
  | some (key,value) => plain key && !decide (IsSmtp key) && value.toList.all safeChar

/-- A literal line is settled. -/
theorem settled_literal {line : Line} (h : literal line=true) : Settled line := by
  match line with
  | none => exact settled_none
  | some (key,value) =>
    obtain ⟨hkey,hvalue⟩ := (Bool.and_eq_true _ _).mp h
    exact settled_safe hkey (safe_of_all hvalue)

/-- A key in quotes closes them. -/
theorem settled_pem {key : String} (hkey : (plain key && !decide (IsSmtp key))=true) (pem : Pem) :
    Settled (some (key,"\""++escapeMultiline pem.text++"\"")) := by
  obtain ⟨hplain,hother⟩ := (Bool.and_eq_true _ _).mp hkey
  have hquotes : "\"".toList=[ '"'] := by decide
  have hvalue : ("\""++escapeMultiline pem.text++"\"").toList=
      '"'::((pem.text.toList.flatMap fun c => if c = '\n' then [ '\\', 'n'] else [c])++
        [ '"']) := by
    rw [String.toList_append,String.toList_append,hquotes,escapeMultiline,String.toList_ofList]
    rfl
  refine ⟨?_,?_,?_,?_⟩
  · rintro _ _ ⟨⟩
    exact plainKey hplain
  · rintro _ _ ⟨⟩
    simpa using hother
  · rintro _ _ ⟨⟩ c hc
    rw [hvalue] at hc
    have hplainChars : armour.all (!isBreak ·)=true := by decide +kernel
    rcases List.mem_cons.mp hc with rfl|hc
    · decide
    · rcases List.mem_append.mp hc with hc|hc
      · obtain ⟨d,hd,hc⟩ := List.mem_flatMap.mp hc
        by_cases hfeed : d = '\n'
        · rw [if_pos hfeed] at hc
          rcases List.mem_cons.mp hc with rfl|hc
          · decide
          · rw [List.mem_singleton.mp hc]
            decide
        · rw [if_neg hfeed] at hc
          rw [List.mem_singleton.mp hc]
          have hmem : d∈armour := (pem.mem d hd).resolve_left hfeed
          simpa using List.all_eq_true.mp hplainChars d hmem
      · rw [List.mem_singleton.mp hc]
        decide
  · rintro _ _ ⟨⟩ rest q body hstart _
    rw [hvalue,List.dropWhile_cons_of_neg (by decide)] at hstart
    obtain ⟨rfl,rfl⟩ := List.cons.inj hstart
    exact .inl (closes_escaped pem.mem)

/-- The lines before the mail settings are settled. -/
theorem settled_before (g : Generated) : ∀ line∈linesBefore g,Settled line := by
  have hdatabase : Safe ("postgresql+asyncpg://auth_service:"++g.authDbPassword.text++
      "@postgres-auth:5432/auth_service") :=
    ((safe_of_all (by decide +kernel)).append g.authDbPassword.safe).append (safe_of_all (by decide +kernel))
  have hredis : Safe ("redis://:"++g.redisPassword.text++"@redis:6379/0") :=
    ((safe_of_all (by decide +kernel)).append g.redisPassword.safe).append (safe_of_all (by decide +kernel))
  simp only [linesBefore,List.forall_mem_cons,List.not_mem_nil,false_imp_iff,implies_true,and_true]
  exact ⟨settled_literal (by decide +kernel),settled_literal (by decide +kernel),settled_literal (by decide +kernel),
    settled_literal (by decide +kernel),settled_literal (by decide +kernel),settled_none,
    settled_safe (by decide +kernel) hdatabase,settled_safe (by decide +kernel) hredis,settled_none,
    settled_literal (by decide +kernel),settled_literal (by decide +kernel),settled_literal (by decide +kernel),
    settled_literal (by decide +kernel),settled_literal (by decide +kernel),settled_pem (by decide +kernel) g.privatePem,
    settled_pem (by decide +kernel) g.publicPem,settled_none,
    settled_safe (by decide +kernel) g.refreshPepper.safe,settled_safe (by decide +kernel) g.authPrivacyPepper.safe,
    settled_safe (by decide +kernel) g.resetPepper.safe,settled_none,settled_literal (by decide +kernel),
    settled_safe (by decide +kernel) g.fernetKey.safe,settled_literal (by decide +kernel),
    settled_literal (by decide +kernel),settled_none,settled_literal (by decide +kernel),
    settled_literal (by decide +kernel)⟩

/-- The lines after the mail settings are literal. -/
theorem literal_after : linesAfter.all literal=true := by decide +kernel

/-- So they are settled. -/
theorem settled_after : ∀ line∈linesAfter,Settled line :=
  fun line hline => settled_literal (List.all_eq_true.mp literal_after line hline)

end Fresh

section Regenerated

variable (g : Generated) (smtp : List (String×String))

/-- The mail settings of the new file. -/
def smtpLines : List String :=
  smtpTemplate.map fun setting => setting.1++"="++(entry smtp setting.1).getD setting.2

/-- A settled line is rendered on one line. -/
theorem settled_single {line : Line} (h : Settled line) : Single (render line) := by
  match line with
  | none =>
    intro c hc
    cases hc
  | some (key,value) => exact (h.single key value rfl).assignment (h.key key value rfl)

/-- The keys of the mail settings in the template. -/
def smtpKeys : List String := smtpTemplate.map Prod.fst

/-- Every mail setting of the template has a plain name and a one-line default.
-/
theorem smtpTemplate_settled {setting : String×String} (h : setting∈smtpTemplate) :
    PlainKey isSpace setting.1.toList ∧ IsSmtp setting.1 ∧ Single setting.2 := by
  have hall : (smtpTemplate.all fun setting => plain setting.1 && decide (IsSmtp setting.1) &&
      setting.2.toList.all safeChar)=true := by decide +kernel
  obtain ⟨hkey,hvalue⟩ := (Bool.and_eq_true _ _).mp (List.all_eq_true.mp hall setting h)
  obtain ⟨hplain,hsmtp⟩ := (Bool.and_eq_true _ _).mp hkey
  exact ⟨plainKey hplain,of_decide_eq_true hsmtp,fun c hc => (safe_of_all hvalue c hc).1⟩

/-- A line around the mail settings is not replaced. -/
theorem mergeLine_settled {line : Line} (hsmtp : ∀ e∈smtp,IsSmtp e.1) (h : Settled line) :
    mergeLine smtp (render line)=render line := by
  match line with
  | none => rfl
  | some (key,value) =>
    have hnone : entry smtp key=none := by
      rw [entry,Option.map_eq_none_iff]
      refine List.find?_eq_none.mpr fun e he heq => ?_
      have hkey : e.1=key := of_decide_eq_true heq
      exact h.other key value rfl (hkey ▸ hsmtp e (List.mem_reverse.mp he))
    rw [render,mergeLine_assignment smtp value (h.key key value rfl),hnone]
    rfl

/-- The file is not empty. -/
theorem authLines_ne_nil : (authLines g).map render≠[] := by simp [authLines,linesBefore]

/-- The text of the fresh file. -/
theorem authEnv_toList : (authEnv g).toList=written ((authLines g).map render) := by
  rw [←intercalate_written (authLines_ne_nil g),authEnv,
    String.intercalate_append_of_ne_nil (authLines_ne_nil g) (by simp)]
  simp

/-- The lines of the fresh file. -/
theorem splitlines_authEnv : splitlines (authEnv g)=(authLines g).map render := by
  refine splitlines_written (authEnv_toList g) fun line hline => ?_
  obtain ⟨found,hfound,rfl⟩ := List.mem_map.mp hline
  rcases List.mem_append.mp hfound with hbefore|hrest
  · exact settled_single (settled_before g found hbefore)
  · rcases List.mem_append.mp hrest with hsmtp|hafter
    · obtain ⟨setting,hsetting,rfl⟩ := List.mem_map.mp hsmtp
      obtain ⟨hkey,_,hvalue⟩ := smtpTemplate_settled hsetting
      exact hvalue.assignment hkey
    · exact settled_single (settled_after found hafter)

/-- The lines of the new file: only the mail settings are replaced. -/
theorem mergeLine_authLines (hsmtp : ∀ e∈smtp,IsSmtp e.1) :
    ((authLines g).map render).map (mergeLine smtp)=
      (linesBefore g).map render++(smtpLines smtp++linesAfter.map render) := by
  have hsettled : ∀ lines : List Line,(∀ line∈lines,Settled line) →
      (lines.map render).map (mergeLine smtp)=lines.map render := by
    intro lines hlines
    rw [List.map_map]
    exact List.map_congr_left fun line hline => mergeLine_settled smtp hsmtp (hlines line hline)
  have hmail : ((smtpTemplate.map some).map render).map (mergeLine smtp)=smtpLines smtp := by
    rw [List.map_map,List.map_map]
    exact List.map_congr_left fun setting hsetting =>
      mergeLine_assignment smtp setting.2 (smtpTemplate_settled hsetting).1
  rw [authLines,List.map_append,List.map_append,List.map_append,List.map_append,hmail,
    hsettled _ (settled_before g),hsettled _ settled_after]

/-- Without entries nothing is replaced. -/
theorem mergeLine_nil (line : String) : mergeLine [] line=line := by
  unfold mergeLine
  split
  · rfl
  · rfl

/-- The text of the new file. -/
theorem merged_toList (hsmtp : ∀ e∈smtp,IsSmtp e.1) :
    (mergeSmtpIntoAuthEnv (authEnv g) smtp).toList=
      written ((linesBefore g).map render++(smtpLines smtp++linesAfter.map render)) := by
  rw [←mergeLine_authLines g smtp hsmtp]
  by_cases hnil : smtp=[]
  · subst hnil
    have hself : ((authLines g).map render).map (mergeLine [])=(authLines g).map render :=
      (List.map_congr_left fun line _ => mergeLine_nil line).trans (List.map_id _)
    rw [mergeSmtpIntoAuthEnv,if_pos rfl,authEnv_toList,hself]
  · have hlines : (splitlines (authEnv g)).map (mergeLine smtp)≠[] := by
      rw [splitlines_authEnv]
      simpa using authLines_ne_nil g
    rw [mergeSmtpIntoAuthEnv,if_neg hnil,intercalate_written hlines,splitlines_authEnv]

/-- What a line of the template binds. -/
def settledBinding (line : Line) : Option Binding :=
  line.bind fun setting => lineBinding isSpace setting.1.toList setting.2.toList

/-- Lines around the mail settings are read one by one. -/
theorem bindings_settled {lines : List Line} (h : ∀ line∈lines,Settled line) (rest : List Char) :
    bindings isSpace (written (lines.map render)++rest)=
      lines.filterMap settledBinding++bindings isSpace rest := by
  induction lines with
  | nil => rfl
  | cons line lines ih =>
    have hothers := ih fun other hmem => h other (List.mem_cons_of_mem line hmem)
    have hline := h line List.mem_cons_self
    match line with
    | none =>
      have hfeed : ∀ c∈[ '\n'],isSpace c=true := by
        intro c hc
        rw [List.mem_singleton.mp hc]
        decide
      rw [List.filterMap_cons_none rfl,←hothers]
      exact bindings_blank (by decide) hfeed (written (lines.map render)++rest)
    | some (key,value) =>
      have hread : bindings isSpace
          (key.toList++ '='::(value.toList++ '\n'::(written (lines.map render)++rest)))=_ :=
        bindings_line (by decide) (by decide) (hline.key key value rfl)
          (inside_of_single (hline.single key value rfl))
          (hline.closed key value rfl (written (lines.map render)++rest))
      have htext : written ((some (key,value)::lines).map render)++rest=
          key.toList++ '='::(value.toList++ '\n'::(written (lines.map render)++rest)) := by
        rw [List.map_cons,written_cons,render,assignment_toList]
        simp
      have hbinding : settledBinding (some (key,value))=
          lineBinding isSpace key.toList value.toList := rfl
      rw [htext,hread,hothers,List.filterMap_cons,hbinding]
      cases lineBinding isSpace key.toList value.toList with
      | none => rfl
      | some found => rfl

/-- Settled lines bind, when read, what they say. -/
theorem bindings_settled_end {lines : List Line} (h : ∀ line∈lines,Settled line) :
    bindings isSpace (written (lines.map render))=lines.filterMap settledBinding := by
  have hnil : bindings isSpace []=[] := rfl
  have hread := bindings_settled h []
  rwa [List.append_nil,hnil,List.append_nil] at hread

/-- Lines around the mail settings bind other keys. -/
theorem settledBinding_ne {lines : List Line} (h : ∀ line∈lines,Settled line) {key : String}
    (hkey : IsSmtp key) : ∀ b∈lines.filterMap settledBinding,b.1≠key.toList := by
  intro b hb heq
  obtain ⟨line,hline,hbinding⟩ := List.mem_filterMap.mp hb
  obtain ⟨⟨k,v⟩,rfl,hread⟩ := Option.bind_eq_some_iff.mp hbinding
  obtain ⟨read,_,rfl⟩ := Option.map_eq_some_iff.mp hread
  obtain rfl : k=key := String.toList_injective heq
  exact (h _ hline).other k v rfl hkey

/-- The lines after the mail settings have no quotes. -/
theorem after_quotes : '"'∉written (linesAfter.map render) ∧ '\''∉written (linesAfter.map render) := by
  have hall : ((written (linesAfter.map render)).all fun c => c≠ '"' && c≠ '\'')=true := by
    decide +kernel
  constructor
  · intro hmem
    exact absurd (List.all_eq_true.mp hall _ hmem) (by decide)
  · intro hmem
    exact absurd (List.all_eq_true.mp hall _ hmem) (by decide)

/-- Whole lines end with the end of a line. -/
theorem whole_written (lines : List String) : Whole (written lines) := by
  intro c hc
  rcases List.eq_nil_or_concat lines with rfl|⟨front,last,rfl⟩
  · cases hc
  · have hnil : written []=[] := rfl
    rw [List.concat_eq_append,written_append,written_cons,hnil,List.getLast?_append,
      List.getLast?_append] at hc
    exact (Option.some.inj hc).symm

/-- The bindings of the template above the mail settings. -/
def template : List Binding := (linesBefore g).filterMap settledBinding

/-- The new file has for a mail setting what its lines have under the template. -/
theorem find_merged {env : String → Option String} (hsmtp : ∀ e∈smtp,IsSmtp e.1) {key : String}
    (hkey : IsSmtp key) :
    (resolveOnto env [] (bindings isSpace (mergeSmtpIntoAuthEnv (authEnv g) smtp).toList)).find?
        (fun b => b.1=key.toList)=
      (resolveOnto env (resolveOnto env [] (template g))
        (bindings isSpace (written (smtpLines smtp)))).find? fun b => b.1=key.toList := by
  have hmiddle : bindings isSpace
      (written (smtpLines smtp)++written (linesAfter.map render))=_ :=
    bindings_append (by decide) (by decide) (whole_written (smtpLines smtp)) after_quotes.1
      after_quotes.2
  rw [merged_toList g smtp hsmtp,written_append,written_append,
    bindings_settled (settled_before g),hmiddle,
    bindings_settled_end settled_after,resolveOnto_append,resolveOnto_append,
    find_resolveOnto (settledBinding_ne settled_after hkey)]
  rfl

/-- The template binds no mail setting. -/
theorem find_template {env : String → Option String} {key : String} (hkey : IsSmtp key) :
    (resolveOnto env [] (template g)).find? (fun b => b.1=key.toList)=none := by
  exact find_resolveOnto (settledBinding_ne (settled_before g) hkey)

end Regenerated

end BackendPlatform.RegeneratedSettings
