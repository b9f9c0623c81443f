import BackendPlatform.SharedRedis
import Mathlib.Data.List.TakeWhile

/-!
# Whether mail is configured

The renderer of the production settings and the settings of the
authentication service each decide whether mail can be sent. The values of the
renderer are followed through the validators of the settings, when there are
no secrets files beside the rendered `.env`.
-/

set_option autoImplicit false

namespace BackendPlatform.MailReadiness

open SharedRedis

section Renderer

/-- The values of `_resolve_smtp_for_auth_env` before they are quoted. -/
def smtpValues (compose : List (String×String)) (i : Inputs) : SmtpLines :=
  let password := orElse (orElse (i.readText "smtp_app_password.txt")
    (i.readText "smtp_password.txt")) (composeGet compose "SMTP_PASSWORD")
  let host := orElse (i.readOptionalOneLine "smtp_host.txt") (composeGet compose "SMTP_HOST")
  let username := orElse (i.readOptionalOneLine "smtp_username.txt")
    (composeGet compose "SMTP_USERNAME")
  let fromEmail := orElse (orElse (i.readOptionalOneLine "smtp_from_email.txt")
    (composeGet compose "SMTP_FROM_EMAIL")) username
  let fromName := orElse (orElse (i.readOptionalOneLine "smtp_from_name.txt")
    (composeGet compose "SMTP_FROM_NAME")) "Backend Platform"
  let identityFallback := i.readOptionalOneLine "smtp_identity_email.txt"
  { resolveSmtpForAuthEnv compose i with
    host := if password≠"" ∧ host="" then "smtp.gmail.com" else host
    username := orElse username identityFallback
    password := password
    fromEmail := orElse fromEmail identityFallback
    fromName := fromName }

/-- The lines that are quoted before they are written. -/
def quoted (values : SmtpLines) : SmtpLines :=
  {values with
    host := quoteEnvValue values.host
    username := quoteEnvValue values.username
    password := quoteEnvValue values.password
    fromEmail := quoteEnvValue values.fromEmail
    fromName := quoteEnvValue values.fromName}

/-- The renderer quotes exactly these values. -/
theorem resolveSmtpForAuthEnv_eq (compose : List (String×String)) (i : Inputs) :
    resolveSmtpForAuthEnv compose i=quoted (smtpValues compose i) := by
  simp only [resolveSmtpForAuthEnv,quoted,smtpValues]

/-- `AUTH_ALLOW_MISSING_SMTP` is set to neither answer. -/
def Unanswered (compose : List (String×String)) : Prop :=
  (composeGet compose "AUTH_ALLOW_MISSING_SMTP").toLower∉
    ["true","1","yes","false","0","no"]

end Renderer

section Settings

/-- `service_env`. -/
inductive ServiceEnv where
  /-- `development`. -/
  | development
  /-- `staging`. -/
  | staging
  /-- `production`. -/
  | production
deriving DecidableEq

/-- `Settings` of the authentication service: the fields that its validators
of mail and of a deployment read. -/
structure Settings where
  /-- `service_env`. -/
  serviceEnv : ServiceEnv
  /-- `jwt_algorithm`. -/
  jwtAlgorithm : String
  /-- `cors_allowed_origins`. -/
  corsAllowedOrigins : List String
  /-- `jwt_private_key`. -/
  jwtPrivateKey : String
  /-- `jwt_public_key`. -/
  jwtPublicKey : String
  /-- `smtp_host`. -/
  smtpHost : Option String
  /-- `smtp_port`. -/
  smtpPort : ℤ
  /-- `smtp_username`. -/
  smtpUsername : Option String
  /-- `smtp_password`. -/
  smtpPassword : Option String
  /-- `smtp_password_file`. -/
  smtpPasswordFile : Option String
  /-- `smtp_require_delivery`. -/
  smtpRequireDelivery : Option Bool
  /-- `smtp_use_tls`. -/
  smtpUseTls : Bool
  /-- `smtp_from_email`. -/
  smtpFromEmail : Option String
  /-- `smtp_from_name`. -/
  smtpFromName : Option String
  /-- `auth_allow_missing_smtp`. -/
  authAllowMissingSmtp : Bool
deriving DecidableEq

/-- What the settings take from Python and from pydantic: upper case, and the
parsers of whole numbers and of booleans. -/
structure Runtime where
  /-- `str.upper`. -/
  upper : String → String
  /-- A whole number, or a validation error. -/
  parseInt : String → Option ℤ
  /-- A boolean, or a validation error. -/
  parseBool : String → Option Bool

/-- A text that is present and not empty. -/
def truthy (value : Option String) : Bool := value.any (·≠"")

/-- `a or b` of optional texts. -/
def orOption (a b : Option String) : Option String := if truthy a then a else b

/-- `_normalize_smtp_secret`: the parts between the white space, joined. -/
def normalizeSmtpSecret (raw : String) : String :=
  if strip raw="" then "" else String.ofList ((strip raw).toList.filter fun c => !isSpace c)

/-- `_SMTP_PASSWORD_PLACEHOLDERS`. -/
def smtpPasswordPlaceholders : List String :=
  ["PASTE_YOUR_GMAIL_APP_PASSWORD_HERE","REPLACE_WITH_GMAIL_APP_PASSWORD"]

/-- `_normalize_smtp_identity_line`. -/
def normalizeSmtpIdentityLine (raw : String) : String :=
  strip (if strip raw="" then "" else (splitlines (strip raw)).headD "")

/-- `_blank_smtp_strings_to_none`. -/
def blankSmtpStringsToNone (value : Option String) : Option String := value.filter (strip ·≠"")

/-- The files beside the `.env`, by name. -/
abbrev Files := String → Option String

/-- `_load_smtp_password_from_file`; a path tried twice has one content. -/
def loadSmtpPasswordFromFile (files : Files) (s : Settings) : Settings :=
  if s.smtpPassword.any (normalizeSmtpSecret ·≠"") then s
  else
    let explicit := strip (s.smtpPasswordFile.getD "")
    let candidates := (if explicit="" then [] else [explicit])++
      ["secrets/smtp_app_password.txt","secrets/smtp_password.txt"]
    match ((candidates.filterMap files).map normalizeSmtpSecret).find? (·≠"") with
    | some raw => {s with smtpPassword := some raw}
    | none => s

/-- The mailbox of `_apply_smtp_ec2_defaults`. -/
def applyIdentity (files : Files) (s : Settings) : Settings :=
  let ident := normalizeSmtpIdentityLine ((files "secrets/smtp_identity_email.txt").getD "")
  if ident≠"" && !truthy s.smtpUsername && !truthy s.smtpFromEmail then
    {s with smtpUsername := some ident, smtpFromEmail := some ident}
  else s

/-- `_apply_smtp_ec2_defaults`. -/
def applySmtpEc2Defaults (files : Files) (s : Settings) : Settings :=
  let s := applyIdentity files s
  if s.smtpPassword.any (normalizeSmtpSecret ·≠"") && !truthy s.smtpHost then
    {s with smtpHost := some "smtp.gmail.com"}
  else s

/-- `smtp_from_email_value`. -/
def smtpFromEmailValue (s : Settings) : Option String := orOption s.smtpFromEmail s.smtpUsername

/-- `smtp_password_value`. -/
def smtpPasswordValue (r : Runtime) (s : Settings) : Option String :=
  (s.smtpPassword.map normalizeSmtpSecret).filter fun normalized =>
    normalized≠"" && r.upper normalized∉smtpPasswordPlaceholders.map r.upper

/-- `smtp_is_configured`. -/
def smtpIsConfigured (r : Runtime) (s : Settings) : Bool :=
  truthy s.smtpHost && truthy (smtpFromEmailValue s) && truthy (smtpPasswordValue r s)

/-- The refusal to start without mail. -/
def smtpRefusal : String :=
  "Staging and production require configured SMTP delivery "++
    "(set AUTH_ALLOW_MISSING_SMTP=true when outbound email is intentionally disabled)"

/-- A text contains another. -/
def contains (text part : String) : Bool :=
  (text.toList.tails).any fun rest => part.toList.isPrefixOf rest

/-- `_validate_deployed_security`. -/
def validateDeployedSecurity (r : Runtime) (s : Settings) : Except String Unit := do
  if s.serviceEnv=.development then return ()
  if "HS".toList.isPrefixOf s.jwtAlgorithm.toList then
    throw "Staging and production require asymmetric JWT algorithm (RS*/ES*)"
  if s.corsAllowedOrigins=[] then
    throw "Staging and production require explicit CORS_ALLOWED_ORIGINS"
  if s.corsAllowedOrigins.any (·="*") then
    throw "Wildcard CORS origin is not allowed in staging or production"
  if !contains s.jwtPrivateKey "BEGIN" || !contains s.jwtPublicKey "BEGIN" then
    throw "Deployed asymmetric JWT keys must be PEM-formatted"
  if !smtpIsConfigured r s && !s.authAllowMissingSmtp then
    throw smtpRefusal

/-- The settings of a `.env` with these values, before the deployment is
validated. The other fields are those of `base`. -/
def loaded (r : Runtime) (files : Files) (base : Settings) (values : SmtpLines) :
    Option Settings := do
  let port ← r.parseInt values.port
  let requireDelivery ← r.parseBool values.requireDelivery
  let useTls ← r.parseBool values.useTls
  let allowMissing ← r.parseBool values.allowMissing
  return applySmtpEc2Defaults files (loadSmtpPasswordFromFile files {base with
    smtpHost := blankSmtpStringsToNone (some values.host)
    smtpPort := port
    smtpUsername := blankSmtpStringsToNone (some values.username)
    smtpPassword := some values.password
    smtpPasswordFile := none
    smtpRequireDelivery := some requireDelivery
    smtpUseTls := useTls
    smtpFromEmail := blankSmtpStringsToNone (some values.fromEmail)
    smtpFromName := blankSmtpStringsToNone (some values.fromName)
    authAllowMissingSmtp := allowMissing})

end Settings

section Texts

/-- A text with a character that is no white space. -/
def Visible (text : String) : Prop := ∃ c∈text.toList,isSpace c=false

/-- What is left by a `dropWhile` starts with a character that stays. -/
theorem visible_dropWhile {l : List Char} (h : l.dropWhile isSpace≠[]) :
    ∃ c∈l.dropWhile isSpace,isSpace c=false := by
  refine ⟨(l.dropWhile isSpace).head h,List.head_mem h,?_⟩
  have hhead := List.head_dropWhile_not isSpace h
  simpa using hhead

/-- A text that `strip` does not empty has a visible character after it. -/
theorem visible_strip {text : String} (h : strip text≠"") : Visible (strip text) := by
  have hne : ((text.toList.dropWhile isSpace).reverse.dropWhile isSpace)≠[] := by
    intro hnil
    refine h ?_
    rw [strip,stripChars,hnil]
    rfl
  obtain ⟨c,hc,hspace⟩ := visible_dropWhile hne
  refine ⟨c,?_,hspace⟩
  rw [strip,stripChars,String.toList_ofList]
  exact List.mem_reverse.mpr hc

/-- A visible character survives `strip`. -/
theorem strip_ne_empty {text : String} (h : Visible text) : strip text≠"" := by
  obtain ⟨c,hc,hspace⟩ := h
  intro hempty
  have hnil : ((text.toList.dropWhile isSpace).reverse.dropWhile isSpace)=[] := by
    have hlist := congrArg String.toList hempty
    rw [strip,stripChars,String.toList_ofList] at hlist
    exact List.reverse_eq_nil_iff.mp hlist
  have hall := List.dropWhile_eq_nil_iff.mp hnil
  have hfront : text.toList.dropWhile isSpace=[] := by
    by_contra hne
    obtain ⟨b,hb,hvisible⟩ := visible_dropWhile hne
    exact absurd (hall b (List.mem_reverse.mpr hb)) (by simp [hvisible])
  exact absurd (List.dropWhile_eq_nil_iff.mp hfront c hc) (by simp [hspace])

/-- A text that is empty or visible. -/
def Trimmed (text : String) : Prop := text≠"" → Visible text

theorem trimmed_strip (text : String) : Trimmed (strip text) := visible_strip

theorem trimmed_empty : Trimmed "" := fun h => (h rfl).elim

theorem Trimmed.orElse {a b : String} (ha : Trimmed a) (hb : Trimmed b) :
    Trimmed (orElse a b) := by
  unfold SharedRedis.orElse
  split
  · exact hb
  · exact ha

/-- The first line of an optional file is trimmed. -/
theorem trimmed_readOptionalOneLine (i : Inputs) (name : String) :
    Trimmed (i.readOptionalOneLine name) := by
  unfold Inputs.readOptionalOneLine
  split
  · exact trimmed_empty
  · rename_i text _
    cases hfound : ((splitlines text).map strip).find? fun s => s≠"" && s.toList.head?≠some '#' with
    | none => exact trimmed_empty
    | some line =>
      obtain ⟨raw,_,rfl⟩ := List.mem_map.mp (List.mem_of_find?_eq_some hfound)
      exact trimmed_strip raw

/-- A visible text has something between its white space. -/
theorem normalizeSmtpSecret_ne_empty {raw : String} (h : Visible raw) :
    normalizeSmtpSecret raw≠"" := by
  obtain ⟨c,hc,hspace⟩ := visible_strip (strip_ne_empty h)
  rw [normalizeSmtpSecret,if_neg (strip_ne_empty h)]
  intro hempty
  have hlist := congrArg String.toList hempty
  rw [String.toList_ofList] at hlist
  exact absurd (List.filter_eq_nil_iff.mp hlist c hc) (by simp [hspace])

/-- A visible text is kept by the settings. -/
theorem blankSmtpStringsToNone_some {text : String} (h : Visible text) :
    blankSmtpStringsToNone (some text)=some text := by
  simp [blankSmtpStringsToNone,strip_ne_empty h]

theorem truthy_some {text : String} (h : Visible text) : truthy (some text)=true := by
  have hne : text≠"" := by
    rintro rfl
    obtain ⟨c,hc,_⟩ := h
    cases hc
  simp [truthy,hne]

/-- An empty text becomes none. -/
theorem blankSmtpStringsToNone_empty : blankSmtpStringsToNone (some "")=none := by
  decide

end Texts

section Agreement

variable {compose : List (String×String)} {i : Inputs} {r : Runtime}

/-- The renderer finds mail ready to be sent. -/
structure DeliveryReady (values : SmtpLines) : Prop where
  /-- A host. -/
  host : Visible values.host
  /-- A mailbox. -/
  mailbox : Visible values.fromEmail ∨ values.fromEmail="" ∧ Visible values.username
  /-- A password. -/
  password : Visible values.password

/-- Without an answer in the compose file, the renderer writes `false` only if
it has a host, a mailbox and a password. -/
theorem given_of_inferred (hunanswered : Unanswered compose)
    (hfalse : (resolveSmtpForAuthEnv compose i).allowMissing="false") :
    (smtpValues compose i).host≠"" ∧ ((smtpValues compose i).fromEmail≠"" ∨
      (smtpValues compose i).username≠"") ∧ (smtpValues compose i).password≠"" := by
  have hyes : (composeGet compose "AUTH_ALLOW_MISSING_SMTP").toLower∉["true","1","yes"] :=
    fun hmem => hunanswered (List.mem_append_left ["false","0","no"] hmem)
  have hno : (composeGet compose "AUTH_ALLOW_MISSING_SMTP").toLower∉["false","0","no"] :=
    fun hmem => hunanswered (List.mem_append_right ["true","1","yes"] hmem)
  simp only [resolveSmtpForAuthEnv] at hfalse
  rw [if_neg hyes,if_neg hno] at hfalse
  by_contra hmissing
  simp only [smtpValues] at hmissing
  rw [if_neg hmissing] at hfalse
  exact absurd hfalse (by decide)

/-- The values of the renderer are trimmed. -/
theorem trimmed_smtpValues (compose : List (String×String)) (i : Inputs) :
    Trimmed (smtpValues compose i).host ∧ Trimmed (smtpValues compose i).username ∧
      Trimmed (smtpValues compose i).password ∧ Trimmed (smtpValues compose i).fromEmail := by
  have hfile := trimmed_readOptionalOneLine i
  have hcompose : ∀ key,Trimmed (composeGet compose key) := fun key => trimmed_strip _
  have hread : ∀ name,Trimmed (i.readText name) := fun name => trimmed_strip _
  have hgmail : Trimmed "smtp.gmail.com" := fun _ => ⟨'s',by decide,by decide⟩
  simp only [smtpValues]
  refine ⟨?_,?_,?_,?_⟩
  · split
    · exact hgmail
    · exact (hfile _).orElse (hcompose _)
  · exact ((hfile _).orElse (hcompose _)).orElse (hfile _)
  · exact ((hread _).orElse (hread _)).orElse (hcompose _)
  · exact (((hfile _).orElse (hcompose _)).orElse ((hfile _).orElse (hcompose _))).orElse (hfile _)

/-- Without an answer in the compose file, the renderer writes `false` only
when mail is ready to be sent. -/
theorem deliveryReady_of_inferred (hunanswered : Unanswered compose)
    (hfalse : (resolveSmtpForAuthEnv compose i).allowMissing="false") :
    DeliveryReady (smtpValues compose i) := by
  obtain ⟨hhost,husername,hpassword,hfromEmail⟩ := trimmed_smtpValues compose i
  obtain ⟨hosted,hmailbox,hsecret⟩ := given_of_inferred hunanswered hfalse
  refine ⟨hhost hosted,?_,hpassword hsecret⟩
  by_cases hempty : (smtpValues compose i).fromEmail=""
  · exact .inr ⟨hempty,husername (hmailbox.resolve_left fun hne => hne hempty)⟩
  · exact .inl (hfromEmail hempty)

/-- The mail settings are ready and no deployment is refused for the lack of
them. -/
structure MailAgrees (r : Runtime) (s : Settings) : Prop where
  /-- `smtp_is_configured`. -/
  configured : smtpIsConfigured r s=true
  /-- `_validate_deployed_security`. -/
  accepted : validateDeployedSecurity r s≠.error smtpRefusal

/-- A password of the `.env` is not looked for in files. -/
theorem loadSmtpPasswordFromFile_kept {files : Files} {s : Settings} {password : String}
    (hpassword : normalizeSmtpSecret password≠"") (hs : s.smtpPassword=some password) :
    loadSmtpPasswordFromFile files s=s := by
  refine if_pos ?_
  simp [hs,hpassword]

/-- Without an identity file and with a host nothing is filled in. -/
theorem applySmtpEc2Defaults_kept {files : Files} {s : Settings}
    (hfile : files "secrets/smtp_identity_email.txt"=none) (hhost : truthy s.smtpHost=true) :
    applySmtpEc2Defaults files s=s := by
  have hidentity : applyIdentity files s=s := by
    have hnone : normalizeSmtpIdentityLine ((files "secrets/smtp_identity_email.txt").getD "")="" := by
      rw [hfile]
      decide
    simp [applyIdentity,hnone]
  unfold applySmtpEc2Defaults
  rw [hidentity]
  simp [hhost]

/-- The settings of values that are ready. -/
theorem smtpIsConfigured_iff {values : SmtpLines} (hready : DeliveryReady values)
    {base s : Settings} (hs : loaded r (fun _ => none) base values=some s) :
    smtpIsConfigured r s=true ↔
      r.upper (normalizeSmtpSecret values.password)∉smtpPasswordPlaceholders.map r.upper := by
  have hpassword := normalizeSmtpSecret_ne_empty hready.password
  unfold loaded at hs
  rw [blankSmtpStringsToNone_some hready.host] at hs
  simp only [Option.bind_eq_bind,Option.bind_eq_some_iff,Option.pure_def,Option.some.injEq] at hs
  obtain ⟨port,_,requireDelivery,_,useTls,_,allowMissing,_,rfl⟩ := hs
  rw [loadSmtpPasswordFromFile_kept hpassword rfl,applySmtpEc2Defaults_kept rfl
    (truthy_some hready.host)]
  have hmailbox : truthy (orOption (blankSmtpStringsToNone (some values.fromEmail))
      (blankSmtpStringsToNone (some values.username)))=true := by
    rcases hready.mailbox with hfrom|⟨hempty,huser⟩
    · rw [blankSmtpStringsToNone_some hfrom,orOption,if_pos (truthy_some hfrom)]
      exact truthy_some hfrom
    · rw [hempty,blankSmtpStringsToNone_empty,blankSmtpStringsToNone_some huser]
      exact truthy_some huser
  simp only [smtpIsConfigured,smtpFromEmailValue,smtpPasswordValue,truthy_some hready.host,
    hmailbox,Option.map_some,Bool.true_and]
  by_cases hplaceholder : r.upper (normalizeSmtpSecret values.password)∈
      smtpPasswordPlaceholders.map r.upper
  · rw [Option.filter_some,if_neg (by simp only [hplaceholder,not_true,decide_false,
      Bool.and_false,Bool.false_eq_true,not_false_eq_true])]
    exact iff_of_false (by decide) (not_not.mpr hplaceholder)
  · rw [Option.filter_some,if_pos (by simp only [hpassword,hplaceholder,ne_eq,not_false_eq_true,
      decide_true,Bool.and_true])]
    exact iff_of_true (by simp [truthy,hpassword]) hplaceholder

/-- A deployment is refused for the lack of mail only if there is none. -/
theorem validateDeployedSecurity_ne (s : Settings) (h : smtpIsConfigured r s=true) :
    validateDeployedSecurity r s≠.error smtpRefusal := by
  unfold validateDeployedSecurity
  simp only [h,Bool.not_true,Bool.false_and,Bool.false_eq_true,if_false]
  split
  · nofun
  · split
    · exact fun heq => absurd (Except.error.inj heq) (by decide)
    · split
      · exact fun heq => absurd (Except.error.inj heq) (by decide)
      · split
        · exact fun heq => absurd (Except.error.inj heq) (by decide)
        · split
          · exact fun heq => absurd (Except.error.inj heq) (by decide)
          · nofun

/-- Where the renderer infers that mail must be configured, the settings built
from its values agree exactly when the password is no placeholder. -/
theorem inferred_mail_iff (r : Runtime) (base : Settings) (compose : List (String×String))
    (i : Inputs) (hunanswered : Unanswered compose)
    (hfalse : (resolveSmtpForAuthEnv compose i).allowMissing="false") (s : Settings)
    (hs : loaded r (fun _ => none) base (smtpValues compose i)=some s) :
    MailAgrees r s ↔ r.upper (normalizeSmtpSecret (smtpValues compose i).password)∉
      smtpPasswordPlaceholders.map r.upper := by
  have hready := deliveryReady_of_inferred hunanswered hfalse
  rw [←smtpIsConfigured_iff hready hs]
  exact ⟨fun h => h.configured,fun h => ⟨h,validateDeployedSecurity_ne s h⟩⟩

end Agreement

section Samples

/-- A runtime that knows the values of the samples. -/
def sampleRuntime : Runtime where
  upper := fun text => String.ofList (text.toList.map Char.toUpper)
  parseInt := fun text => if text="587" then some 587 else none
  parseBool := fun text => if text="true" then some true else if text="false" then some false else none

/-- A production deployment with keys and origins. -/
def sampleBase : Settings :=
  ⟨.production,"RS256",["https://app.example.com"],"-----BEGIN","-----BEGIN",none,587,none,none,none,
    none,true,none,none,false⟩

/-- A repository without secrets files for mail. -/
def sampleInputs : Inputs := ⟨"/srv","/srv/infra/compose/.env.compose",none,fun _ => none,""⟩

/-- A compose file with an account and this password. -/
def sampleCompose (password : String) : List (String×String) :=
  [("SMTP_USERNAME","mailer@example.com"),("SMTP_PASSWORD",password)]

/-- The settings of that compose file. -/
def sampleSettings (password : String) : Settings :=
  {sampleBase with
    smtpHost := some "smtp.gmail.com"
    smtpUsername := some "mailer@example.com"
    smtpPassword := some password
    smtpRequireDelivery := some true
    smtpFromEmail := some "mailer@example.com"
    smtpFromName := some "Backend Platform"}

/-- With a password the settings agree. -/
theorem inferred_mail_password : MailAgrees sampleRuntime (sampleSettings "abcd efgh") :=
  (inferred_mail_iff sampleRuntime sampleBase (sampleCompose "abcd efgh") sampleInputs
    (by unfold Unanswered; decide +kernel) (by decide +kernel) (sampleSettings "abcd efgh")
    (by decide +kernel)).mpr (by decide +kernel)

/-- With the password of the documented example the renderer infers that mail
must be configured, and production does not start. -/
theorem placeholder_refused :
    Unanswered (sampleCompose "PASTE_YOUR_GMAIL_APP_PASSWORD_HERE") ∧
      (resolveSmtpForAuthEnv (sampleCompose "PASTE_YOUR_GMAIL_APP_PASSWORD_HERE")
        sampleInputs).allowMissing="false" ∧
      loaded sampleRuntime (fun _ => none) sampleBase
          (smtpValues (sampleCompose "PASTE_YOUR_GMAIL_APP_PASSWORD_HERE") sampleInputs)=
        some (sampleSettings "PASTE_YOUR_GMAIL_APP_PASSWORD_HERE") ∧
      validateDeployedSecurity sampleRuntime (sampleSettings "PASTE_YOUR_GMAIL_APP_PASSWORD_HERE")=
        .error smtpRefusal := by
  refine ⟨?_,?_,?_,?_⟩
  · unfold Unanswered
    decide +kernel
  · decide +kernel
  · decide +kernel
  · decide +kernel

end Samples

end BackendPlatform.MailReadiness
