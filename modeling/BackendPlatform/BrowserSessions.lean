import BackendPlatform.ClientAddresses
import Mathlib.Data.List.Infix

/-!
# Sessions of browsers

The gateway keeps refresh tokens of browsers in a cookie that scripts cannot
read: it takes them out of the answers of the authentication service, and puts
the one of the cookie into requests to refresh and to sign out. What a page
sees of its session never depends on the tokens.
-/

set_option autoImplicit false

namespace BackendPlatform.BrowserSessions

open SharedRedis AuthRecords AuthEffects ClientAddresses

section Dictionaries

/-- A JSON object: keys and values in order. -/
abbrev Items := List (String×PyValue)

/-- `dict.get`. -/
def getItem (items : Items) (key : String) : Option PyValue :=
  (items.find? fun i => i.1=key).map (·.2)

/-- `dict.get` of a text. -/
def getText (items : Items) (key : String) : Option String :=
  match getItem items key with
  | some (.str text) => some text
  | _ => none

/-- `dict.get` of a mapping. -/
def getDict (items : Items) (key : String) : Option Items :=
  match getItem items key with
  | some (.dict nested) => some nested
  | _ => none

/-- `dict.pop`. -/
def pop (items : Items) (key : String) : Items := items.filter fun i => i.1≠key

/-- Assignment to a key that is there. -/
def assign (items : Items) (key : String) (value : PyValue) : Items :=
  items.map fun i => if i.1=key then (key,value) else i

variable {items : Items} {key other : String} {value value' : PyValue}

/-- Looking a key up in an object with one more member in front. -/
theorem getItem_cons (i : String×PyValue) :
    getItem (i::items) key=if i.1=key then some i.2 else getItem items key := by
  by_cases h : i.1=key
  · simp [getItem,h]
  · simp [getItem,h]

/-- Removing a key from an object with one more member in front. -/
theorem pop_cons (i : String×PyValue) :
    pop (i::items) key=if i.1=key then pop items key else i::pop items key := by
  by_cases h : i.1=key
  · simp [pop,h]
  · simp [pop,h]

/-- Replacing a key in an object with one more member in front. -/
theorem assign_cons (i : String×PyValue) :
    assign (i::items) key value=(if i.1=key then (key,value) else i)::assign items key value := rfl

/-- A replaced member reads as the new value. -/
theorem getItem_assign_self :
    getItem (assign items key value) key=(getItem items key).map fun _ => value := by
  induction items with
  | nil => rfl
  | cons i items ih =>
    rw [assign_cons,getItem_cons,getItem_cons]
    by_cases h : i.1=key
    · simp [h]
    · simpa only [if_neg h] using ih

/-- The other members read as before. -/
theorem getItem_assign_of_ne (hne : other≠key) :
    getItem (assign items key value) other=getItem items other := by
  induction items with
  | nil => rfl
  | cons i items ih =>
    rw [assign_cons,getItem_cons,getItem_cons,ih]
    by_cases h : i.1=key
    · simp [h,Ne.symm hne]
    · rw [if_neg h]

/-- A removed member is gone. -/
theorem getItem_pop_self : getItem (pop items key) key=none := by
  simp [getItem,pop]

/-- The other members are left. -/
theorem getItem_pop_of_ne (hne : other≠key) :
    getItem (pop items key) other=getItem items other := by
  induction items with
  | nil => rfl
  | cons i items ih =>
    rw [pop_cons,getItem_cons]
    by_cases h : i.1=key
    · rw [if_pos h,ih,if_neg (h ▸ Ne.symm hne)]
    · rw [if_neg h,getItem_cons,ih]

/-- The later replacement counts. -/
theorem assign_assign : assign (assign items key value) key value'=assign items key value' := by
  rw [assign,assign,assign,List.map_map]
  refine List.map_congr_left fun i _ => ?_
  by_cases h : i.1=key
  · simp [h]
  · simp [h]

/-- A removed member's value does not matter. -/
theorem pop_assign_self : pop (assign items key value) key=pop items key := by
  induction items with
  | nil => rfl
  | cons i items ih =>
    rw [assign_cons,pop_cons,pop_cons,ih]
    by_cases h : i.1=key
    · simp [h]
    · simp [h]

/-- Replacements of different members commute. -/
theorem assign_comm (hne : other≠key) :
    assign (assign items key value) other value'=assign (assign items other value') key value := by
  rw [assign,assign,assign,assign,List.map_map,List.map_map]
  refine List.map_congr_left fun i _ => ?_
  by_cases h : i.1=key
  · simp [h,hne.symm]
  · by_cases hother : i.1=other
    · simp [hother,hne]
    · simp [h,hother]

/-- A text member is there with its text. -/
theorem getItem_of_getText {text : String} (h : getText items key=some text) :
    getItem items key=some (.str text) := by
  unfold getText at h
  split at h
  · rename_i hitem
    rw [hitem,Option.some.inj h]
  · cases h

/-- A nested object is there with its members. -/
theorem getItem_of_getDict {nested : Items} (h : getDict items key=some nested) :
    getItem items key=some (.dict nested) := by
  unfold getDict at h
  split at h
  · rename_i hitem
    rw [hitem,Option.some.inj h]
  · cases h

/-- A replaced text reads as the new text. -/
theorem getText_assign_self {text text' : String} (h : getText items key=some text) :
    getText (assign items key (.str text')) key=some text' := by
  rw [getText,getItem_assign_self,getItem_of_getText h]
  rfl

/-- A replaced object reads as the new object. -/
theorem getDict_assign_self {nested nested' : Items} (h : getDict items key=some nested) :
    getDict (assign items key (.dict nested')) key=some nested' := by
  rw [getDict,getItem_assign_self,getItem_of_getDict h]
  rfl

/-- Another text reads as before. -/
theorem getText_assign_of_ne (hne : other≠key) :
    getText (assign items key value) other=getText items other := by
  rw [getText,getItem_assign_of_ne hne,getText]

/-- Another object reads as before. -/
theorem getDict_assign_of_ne (hne : other≠key) :
    getDict (assign items key value) other=getDict items other := by
  rw [getDict,getItem_assign_of_ne hne,getDict]

end Dictionaries

section Gateway

/-- A body, by what decoding it as JSON gives. -/
inductive Body where
  /-- It is not UTF-8. -/
  | undecodable (bytes : List UInt8)
  /-- A text that is no JSON. -/
  | text (content : String)
  /-- A JSON value. -/
  | json (value : PyValue)

/-- An `AppException`. -/
structure GatewayFailure where
  /-- Its message. -/
  message : String
  /-- Its code. -/
  errorCode : String
  /-- The status it is answered with. -/
  statusCode : ℕ

/-- The settings the cookie depends on. -/
structure Settings where
  /-- `REFRESH_COOKIE_NAME`. -/
  refreshCookieName : String
  /-- `REFRESH_COOKIE_MAX_AGE_SECONDS`. -/
  refreshCookieMaxAgeSeconds : ℕ
  /-- `REFRESH_COOKIE_SECURE`. -/
  refreshCookieSecure : Option Bool
  /-- `TRUSTED_PROXY_IPS`. -/
  trustedProxyIps : Option (List String)

/-- A `Set-Cookie` header. -/
structure SetCookie where
  /-- Name of the cookie. -/
  key : String
  /-- Its value. -/
  value : String
  /-- Seconds to keep it. -/
  maxAge : ℕ
  /-- Where it is sent. -/
  path : String
  /-- Scripts cannot read it. -/
  httponly : Bool
  /-- It is only sent over TLS. -/
  secure : Bool
  /-- Whether other sites may send it. -/
  samesite : String
deriving DecidableEq

/-- What the gateway answers. -/
structure Answer where
  /-- The status. -/
  statusCode : ℕ
  /-- The body. -/
  body : Body
  /-- Headers apart from cookies. -/
  headers : Headers
  /-- Cookies. -/
  cookies : List SetCookie

/-- What a service answers; header names are in lower case. -/
structure ProxiedResponse where
  /-- The status. -/
  statusCode : ℕ
  /-- The body. -/
  body : Body
  /-- The headers. -/
  headers : Headers

/-- A request of the gateway to the authentication service. -/
structure UpstreamRequest where
  /-- The path. -/
  path : String
  /-- The body. -/
  body : Body
  /-- The headers apart from cookies. -/
  headers : Headers
  /-- The refresh cookie, which the gateway sends on with the other headers. -/
  cookie : Option String

/-- The authentication service, as a state machine; the error is what the
client of the service raises. -/
abbrev Upstream (σ : Type) := σ → UpstreamRequest → Except GatewayFailure ProxiedResponse×σ

/-- The endpoints for browsers. -/
inductive Endpoint where
  /-- `POST /browser-auth/register`. -/
  | register
  /-- `POST /browser-auth/login`. -/
  | login
  /-- `POST /browser-auth/login/2fa`. -/
  | loginTwoFactor
  /-- `POST /browser-auth/refresh`. -/
  | refresh
  /-- `POST /browser-auth/revoke`. -/
  | revoke
deriving DecidableEq

/-- `_UPSTREAM`. -/
def Endpoint.upstream : Endpoint → String
  | .register => "/v1/auth/register"
  | .login => "/v1/auth/login"
  | .loginTwoFactor => "/v1/auth/login/2fa"
  | .refresh => "/v1/tokens/refresh"
  | .revoke => "/v1/tokens/revoke"

/-- A call of a page. The browser adds the cookie. -/
structure Call where
  /-- The endpoint. -/
  endpoint : Endpoint
  /-- The body the page sends. -/
  body : Body
  /-- Headers apart from cookies, and the peer. -/
  request : ClientAddresses.Request
  /-- Scheme of the URL. -/
  scheme : String
  /-- `request.state.request_id`. -/
  requestId : Option String
  /-- What the rate limiter raises. -/
  refused : Option GatewayFailure
  /-- Microseconds of the clock of the browser. -/
  now : Instant

/-- `BLOCKED_RESPONSE_HEADERS`. -/
def blockedResponseHeaders : List String := ["server","set-cookie","x-powered-by"]

/-- `_sanitize_response_headers`. -/
def sanitizeResponseHeaders (headers : Headers) : Headers :=
  headers.filter fun h => !(hopByHopHeaders.contains (lowerName h.1) ||
    blockedResponseHeaders.contains (lowerName h.1) || lowerName h.1="content-length")

/-- `effective_refresh_cookie_secure`. -/
def effectiveRefreshCookieSecure (lib : AddressLibrary) (settings : Settings) (call : Call) :
    Bool :=
  match settings.refreshCookieSecure with
  | some secure => secure
  | none =>
    if lowerName call.scheme="https" then true
    else if !isTrustedProxy lib (clientHost call.request.client) settings.trustedProxyIps then false
    else if strip ((getHeader call.request.headers "x-forwarded-for").getD "")="" then false
    else
      let protoRaw := strip ((getHeader call.request.headers "x-forwarded-proto").getD "")
      if protoRaw="" then false else lowerName (firstHop protoRaw)="https"

/-- `_strip_refresh_from_json`. -/
def stripRefreshFromJson (data : Items) : Items×Option String :=
  let (out,refresh) := match getDict data "tokens" with
    | some nested => match getText nested "refresh_token" with
      | some rt => (assign data "tokens" (.dict (pop nested "refresh_token")),some rt)
      | none => (data,none)
    | none => (data,none)
  match getText out "refresh_token" with
  | some rt => (pop out "refresh_token",some rt)
  | none => (out,refresh)

/-- `_set_refresh_cookie`. -/
def setRefreshCookie (lib : AddressLibrary) (settings : Settings) (call : Call)
    (refreshToken : String) : SetCookie where
  key := settings.refreshCookieName
  value := refreshToken
  maxAge := settings.refreshCookieMaxAgeSeconds
  path := "/"
  httponly := true
  secure := effectiveRefreshCookieSecure lib settings call
  samesite := "lax"

/-- `_clear_refresh_cookie`. -/
def clearRefreshCookie (lib : AddressLibrary) (settings : Settings) (call : Call) : SetCookie where
  key := settings.refreshCookieName
  value := ""
  maxAge := 0
  path := "/"
  httponly := false
  secure := effectiveRefreshCookieSecure lib settings call
  samesite := "lax"

/-- An error as JSON. -/
def errorAnswer (statusCode : ℕ) (errorCode message : String) (call : Call) : Answer where
  statusCode := statusCode
  body := .json (.dict [("error_code",.str errorCode),("message",.str message),
    ("request_id",(call.requestId.map PyValue.str).getD .none)])
  headers := [("content-type","application/json")]
  cookies := []

/-- `app_exception_handler`. -/
def appExceptionHandler (failure : GatewayFailure) (call : Call) : Answer :=
  errorAnswer failure.statusCode failure.errorCode failure.message call

/-- `unhandled_exception_handler`. -/
def unhandledExceptionHandler (call : Call) : Answer :=
  errorAnswer 500 "INTERNAL_SERVER_ERROR" "Internal server error" call

/-- The content type contains `application/json`. -/
def isJson (headers : Headers) : Bool :=
  "application/json".toList<:+:(lowerName ((getHeader headers "content-type").getD "")).toList

/-- The part of `_forward_json` after the service has answered. -/
def answerJson (lib : AddressLibrary) (settings : Settings) (call : Call)
    (setCookieOnOk clearCookieOnOk : Bool) (proxied : ProxiedResponse) : Answer :=
  if proxied.statusCode<400 && isJson proxied.headers then
    match proxied.body with
    | .json (.dict parsed) =>
      let (outJson,refreshVal) :=
        if setCookieOnOk then stripRefreshFromJson parsed else (parsed,none)
      let set := match refreshVal with
        | some rt => if rt="" then [] else [setRefreshCookie lib settings call rt]
        | none => []
      let cleared := if clearCookieOnOk then [clearRefreshCookie lib settings call] else []
      ⟨proxied.statusCode,.json (.dict outJson),[("content-type","application/json")],
        (if setCookieOnOk then set else [])++cleared⟩
    | body => ⟨proxied.statusCode,body,proxied.headers,[]⟩
  else ⟨proxied.statusCode,proxied.body,proxied.headers,[]⟩

/-- `_forward_json`. -/
def forwardJson {σ : Type} (lib : AddressLibrary) (settings : Settings) (upstream : Upstream σ)
    (s : σ) (call : Call) (cookie : Option String) (body : Body)
    (setCookieOnOk clearCookieOnOk : Bool) : Answer×σ :=
  match call.refused with
  | some failure => (appExceptionHandler failure call,s)
  | none =>
    let clientIp := getClientIp lib call.request settings.trustedProxyIps
    match upstream s ⟨call.endpoint.upstream,body,
        safeHeaders (dictOf call.request.headers) (some clientIp),cookie⟩ with
    | (.error failure,s') => (appExceptionHandler failure call,s')
    | (.ok response,s') =>
      (answerJson lib settings call setCookieOnOk clearCookieOnOk
        ⟨response.statusCode,response.body,sanitizeResponseHeaders response.headers⟩,s')

/-- `bool(value)`. -/
def truthy : PyValue → Bool
  | .none => false
  | .bool value => value
  | .int value => value≠0
  | .float bits => bits.toNat%2^63≠0
  | .str value => value≠""
  | .list items => !items.isEmpty
  | .tuple items => !items.isEmpty
  | .dict items => !items.isEmpty

/-- Whether `browser_revoke` revokes the whole family; `none` is the error that
it does not catch. -/
def revokeFamily : Body → Option Bool
  | .undecodable _ => none
  | .json (.dict extra) => some (((getItem extra "revoke_family").map truthy).getD true)
  | _ => some true

/-- The answer to a call without the cookie. -/
def missingCookie (call : Call) : Answer :=
  errorAnswer 401 "HTTP_ERROR" "Missing refresh cookie" call

/-- The endpoints. -/
def serve {σ : Type} (lib : AddressLibrary) (settings : Settings) (upstream : Upstream σ) (s : σ)
    (call : Call) (cookie : Option String) : Answer×σ :=
  match call.endpoint with
  | .register => forwardJson lib settings upstream s call cookie call.body false false
  | .login => forwardJson lib settings upstream s call cookie call.body true false
  | .loginTwoFactor => forwardJson lib settings upstream s call cookie call.body true false
  | .refresh =>
    match cookie.filter (·≠"") with
    | none => (missingCookie call,s)
    | some token =>
      forwardJson lib settings upstream s call cookie (.json (.dict [("refresh_token",.str token)]))
        true false
  | .revoke =>
    match cookie.filter (·≠"") with
    | none => (missingCookie call,s)
    | some token =>
      match revokeFamily call.body with
      | none => (unhandledExceptionHandler call,s)
      | some family =>
        forwardJson lib settings upstream s call cookie
          (.json (.dict [("refresh_token",.str token),("revoke_family",.bool family)])) false true

end Gateway

section Browser

/-- The refresh cookie of a browser with the time it expires at. -/
abbrev Jar := Option (String×Instant)

/-- The cookie that is sent. -/
def Jar.sent (jar : Jar) (now : Instant) : Option String :=
  (jar.filter fun cookie => now<cookie.2).map (·.1)

/-- The jar after a `Set-Cookie` header. -/
def stored (now : Instant) (cookie : SetCookie) : Jar :=
  if cookie.maxAge=0 then none else some (cookie.value,now+seconds cookie.maxAge)

/-- What a page sees of an answer. -/
structure Visible where
  /-- The status. -/
  statusCode : ℕ
  /-- The body. -/
  body : Body
  /-- The headers. -/
  headers : Headers
  /-- The cookies that its scripts can read. -/
  cookies : List SetCookie

/-- The cookies of an answer that scripts can read. -/
def readable (cookies : List SetCookie) : List SetCookie :=
  cookies.filter fun cookie => !cookie.httponly

/-- One call of a page: what it sees, and the state after it. -/
def step {σ : Type} (lib : AddressLibrary) (settings : Settings) (upstream : Upstream σ)
    (call : Call) (s : σ) (jar : Jar) : Visible×σ×Jar :=
  let (answer,s') := serve lib settings upstream s call (jar.sent call.now)
  (⟨answer.statusCode,answer.body,answer.headers,readable answer.cookies⟩,s',
    answer.cookies.foldl (fun _ cookie => stored call.now cookie) jar)

/-- The calls of a page, one after another. -/
def run {σ : Type} (lib : AddressLibrary) (settings : Settings) (upstream : Upstream σ) :
    List Call → σ → Jar → List Visible×σ×Jar
  | [],s,jar => ([],s,jar)
  | call::calls,s,jar =>
    let (seen,s',jar') := step lib settings upstream call s jar
    let (rest,final) := run lib settings upstream calls s' jar'
    (seen::rest,final)

end Browser

section Tokens

variable {ρ : String → String}

/-- Another refresh token in the place of one. -/
def renameAt (ρ : String → String) (items : Items) : Items :=
  match getText items "refresh_token" with
  | some token => assign items "refresh_token" (.str (ρ token))
  | none => items

/-- Other refresh tokens in an answer of the authentication service. -/
def renameTokens (ρ : String → String) (data : Items) : Items :=
  renameAt ρ (match getDict data "tokens" with
    | some nested => match getText nested "refresh_token" with
      | some token => assign data "tokens" (.dict (assign nested "refresh_token" (.str (ρ token))))
      | none => data
    | none => data)

/-- The nested tokens and the flat refresh token stand under different keys. -/
theorem tokens_ne_refresh : "tokens"≠"refresh_token" := by decide

/-- What is left of an answer does not depend on its tokens. -/
theorem strip_renameTokens (data : Items) :
    stripRefreshFromJson (renameTokens ρ data)=
      ((stripRefreshFromJson data).1,(stripRefreshFromJson data).2.map ρ) := by
  have hne := tokens_ne_refresh
  unfold stripRefreshFromJson renameTokens
  cases hdict : getDict data "tokens" with
  | none =>
    cases htop : getText data "refresh_token" with
    | none => simp only [renameAt,htop,hdict,Option.map_none]
    | some top =>
      simp only [renameAt,htop,hdict,getDict_assign_of_ne hne,getText_assign_self htop,
        pop_assign_self,Option.map_some]
  | some nested =>
    cases hnested : getText nested "refresh_token" with
    | none =>
      cases htop : getText data "refresh_token" with
      | none => simp only [renameAt,htop,hdict,hnested,Option.map_none]
      | some top =>
        simp only [renameAt,htop,hdict,hnested,getDict_assign_of_ne hne,getText_assign_self htop,
          pop_assign_self,Option.map_some]
    | some token =>
      cases htop : getText data "refresh_token" with
      | none =>
        simp only [renameAt,htop,hnested,getText_assign_of_ne hne.symm,getDict_assign_self hdict,
          getText_assign_self hnested,pop_assign_self,assign_assign,Option.map_some]
      | some top =>
        have hkept : ∀ value, getText (assign data "tokens" value) "refresh_token"=some top :=
          fun _ => (getText_assign_of_ne hne.symm).trans htop
        simp only [renameAt,hnested,hkept,getDict_assign_of_ne hne,
          getDict_assign_self hdict,getText_assign_self hnested,getText_assign_self (hkept _),
          assign_comm hne,pop_assign_self,assign_assign,Option.map_some]

end Tokens

section Renaming

variable {ρ : String → String} {σ : Type} {lib : AddressLibrary} {settings : Settings}

/-- Paths whose answers hand refresh tokens out. -/
def issuing (path : String) : Bool :=
  path="/v1/auth/login" || path="/v1/auth/login/2fa" || path="/v1/tokens/refresh"

/-- Paths that refresh tokens are presented to. -/
def presenting (path : String) : Bool := path="/v1/tokens/refresh" || path="/v1/tokens/revoke"

/-- A request with another refresh token. -/
def UpstreamRequest.rename (ρ : String → String) (r : UpstreamRequest) : UpstreamRequest :=
  {r with
    body := match r.body with
      | .json (.dict items) =>
        .json (.dict (if presenting r.path then renameAt ρ items else items))
      | body => body
    cookie := r.cookie.map ρ}

/-- An answer with other refresh tokens. -/
def ProxiedResponse.rename (ρ : String → String) (path : String) (r : ProxiedResponse) :
    ProxiedResponse :=
  {r with
    body := match r.body with
      | .json (.dict data) => .json (.dict
        (if issuing path && r.statusCode<400 && isJson (sanitizeResponseHeaders r.headers)
        then renameTokens ρ data else data))
      | body => body}

/-- The same service but for other refresh tokens, which it only hands out in
the two places of its answers. -/
def Renames (ρ : String → String) (upstream upstream' : Upstream σ) : Prop :=
  ∀ s r, upstream' s (r.rename ρ)=
    (((upstream s r).1).map (·.rename ρ r.path),(upstream s r).2)

/-- A cookie with another refresh token. -/
def SetCookie.rename (ρ : String → String) (cookie : SetCookie) : SetCookie :=
  {cookie with value := ρ cookie.value}

/-- An answer of the gateway with other cookies. -/
def Answer.rename (ρ : String → String) (answer : Answer) : Answer :=
  {answer with cookies := answer.cookies.map (·.rename ρ)}

/-- The cookie with another refresh token. -/
def Jar.rename (ρ : String → String) (jar : Jar) : Jar :=
  jar.map fun cookie => (ρ cookie.1,cookie.2)

/-- Renamed refresh tokens upstream give the same answer with renamed cookies.
-/
theorem answerJson_rename (hρ : ∀ t, ρ t="" ↔ t="") (call : Call) {setCookieOnOk : Bool}
    (clearCookieOnOk : Bool) {path : String} (hset : setCookieOnOk=issuing path)
    (r : ProxiedResponse) :
    answerJson lib settings call setCookieOnOk clearCookieOnOk
        {r.rename ρ path with headers := sanitizeResponseHeaders (r.rename ρ path).headers}=
      (answerJson lib settings call setCookieOnOk clearCookieOnOk
        {r with headers := sanitizeResponseHeaders r.headers}).rename ρ := by
  obtain ⟨statusCode,body,headers⟩ := r
  have hempty : ρ ""="" := (hρ "").mpr rfl
  have hclear : (clearRefreshCookie lib settings call).rename ρ=
      clearRefreshCookie lib settings call := by
    simp only [SetCookie.rename,clearRefreshCookie,hempty]
  simp only [answerJson,ProxiedResponse.rename,← hset]
  cases hok : decide (statusCode<400) && isJson (sanitizeResponseHeaders headers) with
  | false =>
    simp only [Bool.and_assoc,hok,Bool.and_false,Bool.false_eq_true,if_false]
    cases body with
    | json value => cases value <;> rfl
    | _ => rfl
  | true =>
    simp only [Bool.and_assoc,hok,Bool.and_true,if_true]
    cases body with
    | json value =>
      cases value with
      | dict data =>
        cases setCookieOnOk with
        | false =>
          cases clearCookieOnOk with
          | false => rfl
          | true => simp [Answer.rename,hclear]
        | true =>
          simp only [if_true,strip_renameTokens]
          cases hrefresh : (stripRefreshFromJson data).2 with
          | none =>
            cases clearCookieOnOk with
            | false => simp [Answer.rename]
            | true => simp [Answer.rename,hclear]
          | some token =>
            by_cases htoken : token=""
            · cases clearCookieOnOk with
              | false => simp [Answer.rename,htoken,hempty]
              | true => simp [Answer.rename,htoken,hempty,hclear]
            · have htoken' : ρ token≠"" := fun h => htoken ((hρ token).mp h)
              cases clearCookieOnOk with
              | false =>
                simp [Answer.rename,htoken,htoken',SetCookie.rename,setRefreshCookie]
              | true =>
                simp [Answer.rename,htoken,htoken',SetCookie.rename,setRefreshCookie,
                  clearRefreshCookie,hempty]
      | _ => rfl
    | _ => rfl

variable {upstream upstream' : Upstream σ}

/-- A forwarded call answers the same but for its cookies. -/
theorem forwardJson_rename (hρ : ∀ t, ρ t="" ↔ t="") (h : Renames ρ upstream upstream') (s : σ)
    (call : Call) (cookie : Option String) {body body' : Body} {setCookieOnOk : Bool}
    (clearCookieOnOk : Bool) (hset : setCookieOnOk=issuing call.endpoint.upstream)
    (hbody : ∀ headers, (UpstreamRequest.rename ρ
      ⟨call.endpoint.upstream,body,headers,cookie⟩).body=body') :
    forwardJson lib settings upstream' s call (cookie.map ρ) body' setCookieOnOk clearCookieOnOk=
      (Answer.rename ρ (forwardJson lib settings upstream s call cookie body setCookieOnOk
        clearCookieOnOk).1,
      (forwardJson lib settings upstream s call cookie body setCookieOnOk clearCookieOnOk).2) := by
  unfold forwardJson
  cases call.refused with
  | some failure => rfl
  | none =>
    have hrequest := h s ⟨call.endpoint.upstream,body,safeHeaders (dictOf call.request.headers)
      (some (getClientIp lib call.request settings.trustedProxyIps)),cookie⟩
    have hrenamed : UpstreamRequest.rename ρ ⟨call.endpoint.upstream,body,safeHeaders
        (dictOf call.request.headers)
        (some (getClientIp lib call.request settings.trustedProxyIps)),cookie⟩=
        ⟨call.endpoint.upstream,body',safeHeaders (dictOf call.request.headers)
          (some (getClientIp lib call.request settings.trustedProxyIps)),cookie.map ρ⟩ := by
      rw [← hbody]
      rfl
    rw [hrenamed] at hrequest
    simp only [hrequest]
    cases hanswer : upstream s ⟨call.endpoint.upstream,body,safeHeaders
      (dictOf call.request.headers)
      (some (getClientIp lib call.request settings.trustedProxyIps)),cookie⟩ with
    | mk answer s' =>
      cases answer with
      | error failure => rfl
      | ok response =>
        exact Prod.ext (answerJson_rename hρ call clearCookieOnOk hset response) rfl

/-- A page's own body is sent as it is. -/
theorem rename_body_of_page {path : String} (hpath : presenting path=false) (body : Body)
    (headers : Headers) (cookie : Option String) :
    (UpstreamRequest.rename ρ ⟨path,body,headers,cookie⟩).body=body := by
  simp only [UpstreamRequest.rename,hpath]
  cases body with
  | json value => cases value <;> rfl
  | _ => rfl

/-- The token of a body that the gateway builds. -/
theorem rename_body_of_token {path : String} (hpath : presenting path=true) (token : String)
    (rest : Items) (hrest : ∀ i∈rest, i.1≠"refresh_token") (headers : Headers)
    (cookie : Option String) :
    (UpstreamRequest.rename ρ
        ⟨path,.json (.dict (("refresh_token",.str token)::rest)),headers,cookie⟩).body=
      .json (.dict (("refresh_token",.str (ρ token))::rest)) := by
  have htext : getText (("refresh_token",.str token)::rest) "refresh_token"=some token := by
    rw [getText,getItem_cons]
    rfl
  have hassign : assign rest "refresh_token" (.str (ρ token))=rest := by
    refine (List.map_congr_left fun i hi => ?_).trans (List.map_id rest)
    exact if_neg (hrest i hi)
  simp only [UpstreamRequest.rename,hpath,if_true,renameAt,htext,assign_cons,hassign]

/-- A call answers the same but for its cookies. -/
theorem serve_rename (hρ : ∀ t, ρ t="" ↔ t="") (h : Renames ρ upstream upstream') (s : σ)
    (call : Call) (cookie : Option String) :
    serve lib settings upstream' s call (cookie.map ρ)=
      ((serve lib settings upstream s call cookie).1.rename ρ,
        (serve lib settings upstream s call cookie).2) := by
  have hsent : (cookie.map ρ).filter (·≠"")=(cookie.filter (·≠"")).map ρ := by
    cases cookie with
    | none => rfl
    | some token =>
      by_cases htoken : token=""
      · simp [Option.filter,htoken,(hρ "").mpr rfl]
      · have htoken' : ρ token≠"" := fun he => htoken ((hρ token).mp he)
        simp [Option.filter,htoken,htoken']
  unfold serve
  cases hendpoint : call.endpoint with
  | register =>
    refine forwardJson_rename hρ h s call cookie _ ?_ fun headers => ?_
    · rw [hendpoint]
      decide
    · exact rename_body_of_page (by rw [hendpoint]; decide) _ _ _
  | login =>
    refine forwardJson_rename hρ h s call cookie _ ?_ fun headers => ?_
    · rw [hendpoint]
      decide
    · exact rename_body_of_page (by rw [hendpoint]; decide) _ _ _
  | loginTwoFactor =>
    refine forwardJson_rename hρ h s call cookie _ ?_ fun headers => ?_
    · rw [hendpoint]
      decide
    · exact rename_body_of_page (by rw [hendpoint]; decide) _ _ _
  | refresh =>
    simp only [hsent]
    cases cookie.filter (·≠"") with
    | none => rfl
    | some token =>
      refine forwardJson_rename hρ h s call cookie _ ?_ fun headers => ?_
      · rw [hendpoint]
        decide
      · exact rename_body_of_token (by rw [hendpoint]; decide) token [] (by simp) _ _
  | revoke =>
    simp only [hsent]
    cases cookie.filter (·≠"") with
    | none => rfl
    | some token =>
      simp only [Option.map_some]
      cases revokeFamily call.body with
      | none => rfl
      | some family =>
        refine forwardJson_rename hρ h s call cookie _ ?_ fun headers => ?_
        · rw [hendpoint]
          decide
        · exact rename_body_of_token (by rw [hendpoint]; decide) token _ (by simp) _ _

section Readable

/-- The cookies that scripts can read carry no value. -/
def Blank (cookies : List SetCookie) : Prop :=
  ∀ cookie∈readable cookies, cookie.value=""

/-- No cookie is readable where none is set. -/
theorem blank_nil : Blank [] := fun _ h => absurd h (by simp [readable])

/-- Two lists without readable cookies make one. -/
theorem Blank.append {first rest : List SetCookie} (h : Blank first) (h' : Blank rest) :
    Blank (first++rest) := by
  intro cookie hmem
  rw [readable,List.filter_append,List.mem_append] at hmem
  exact hmem.elim (h cookie) (h' cookie)

/-- Scripts cannot read the refresh cookie. -/
theorem blank_setRefreshCookie (call : Call) (token : String) :
    Blank [setRefreshCookie lib settings call token] := by
  intro cookie hmem
  simp [readable,setRefreshCookie] at hmem

/-- The cookie that deletes it is readable, and empty. -/
theorem blank_clearRefreshCookie (call : Call) :
    Blank [clearRefreshCookie lib settings call] := by
  intro cookie hmem
  rw [List.mem_singleton.mp (List.mem_of_mem_filter hmem)]
  rfl

/-- The answer to the page sets no cookie that scripts can read. -/
theorem blank_answerJson (call : Call) (setCookieOnOk clearCookieOnOk : Bool)
    (r : ProxiedResponse) :
    Blank (answerJson lib settings call setCookieOnOk clearCookieOnOk r).cookies := by
  have hcleared : Blank (if clearCookieOnOk then [clearRefreshCookie lib settings call]
      else []) := by
    cases clearCookieOnOk with
    | false => exact blank_nil
    | true => exact blank_clearRefreshCookie call
  unfold answerJson
  split
  · split
    · refine Blank.append ?_ hcleared
      cases setCookieOnOk with
      | false => exact blank_nil
      | true =>
        simp only [if_true]
        split
        · split
          · exact blank_nil
          · exact blank_setRefreshCookie call _
        · exact blank_nil
    · exact blank_nil
  · exact blank_nil

/-- Nor does a forwarded request. -/
theorem blank_forwardJson (s : σ) (call : Call) (cookie : Option String) (body : Body)
    (setCookieOnOk clearCookieOnOk : Bool) :
    Blank (forwardJson lib settings upstream s call cookie body setCookieOnOk
      clearCookieOnOk).1.cookies := by
  unfold forwardJson
  split
  · exact blank_nil
  · dsimp only
    split
    · exact blank_nil
    · exact blank_answerJson call _ _ _

/-- No answer shows a token to scripts in a cookie. -/
theorem blank_serve (s : σ) (call : Call) (cookie : Option String) :
    Blank (serve lib settings upstream s call cookie).1.cookies := by
  unfold serve
  cases call.endpoint with
  | register => exact blank_forwardJson s call cookie _ _ _
  | login => exact blank_forwardJson s call cookie _ _ _
  | loginTwoFactor => exact blank_forwardJson s call cookie _ _ _
  | refresh =>
    cases cookie.filter (·≠"") with
    | none => exact blank_nil
    | some token => exact blank_forwardJson s call cookie _ _ _
  | revoke =>
    cases cookie.filter (·≠"") with
    | none => exact blank_nil
    | some token =>
      dsimp only
      cases revokeFamily call.body with
      | none => exact blank_nil
      | some family => exact blank_forwardJson s call cookie _ _ _

/-- So other tokens leave the readable cookies as they are. -/
theorem readable_rename (hempty : ρ ""="") {cookies : List SetCookie} (h : Blank cookies) :
    readable (cookies.map (·.rename ρ))=readable cookies := by
  have hfilter : readable (cookies.map (·.rename ρ))=
      (readable cookies).map (·.rename ρ) := by
    rw [readable,List.filter_map]
    rfl
  rw [hfilter]
  refine (List.map_congr_left fun cookie hmem => ?_).trans (List.map_id _)
  rw [SetCookie.rename,h cookie hmem,hempty,← h cookie hmem]
  rfl

end Readable

/-- The browser sends the renamed token of a renamed jar. -/
theorem sent_rename (jar : Jar) (now : Instant) :
    Jar.sent (jar.rename ρ) now=(jar.sent now).map ρ := by
  cases jar with
  | none => rfl
  | some cookie =>
    by_cases hlive : now<cookie.2
    · simp [Jar.sent,Jar.rename,Option.filter,hlive]
    · simp [Jar.sent,Jar.rename,Option.filter,hlive]

/-- The browser keeps the renamed token of a renamed cookie. -/
theorem stored_rename (now : Instant) (cookie : SetCookie) :
    stored now (cookie.rename ρ)=(stored now cookie).rename ρ := by
  unfold stored
  by_cases hage : cookie.maxAge=0
  · rw [if_pos hage]
    exact if_pos hage
  · rw [if_neg hage]
    exact if_neg hage

/-- One call shows the page the same. -/
theorem step_rename (hρ : ∀ t, ρ t="" ↔ t="") (h : Renames ρ upstream upstream') (call : Call)
    (s : σ) (jar : Jar) :
    step lib settings upstream' call s (jar.rename ρ)=
      ((step lib settings upstream call s jar).1,(step lib settings upstream call s jar).2.1,
        (step lib settings upstream call s jar).2.2.rename ρ) := by
  have hserve : serve lib settings upstream' s call ((jar.sent call.now).map ρ)=
      ((serve lib settings upstream s call (jar.sent call.now)).1.rename ρ,
        (serve lib settings upstream s call (jar.sent call.now)).2) :=
    serve_rename hρ h s call _
  have hcookies : ∀ (cookies : List SetCookie) (jar : Jar),
      (cookies.map (·.rename ρ)).foldl (fun _ cookie => stored call.now cookie) (jar.rename ρ)=
        (cookies.foldl (fun _ cookie => stored call.now cookie) jar).rename ρ := by
    intro cookies
    induction cookies with
    | nil => exact fun _ => rfl
    | cons cookie cookies ih =>
      intro jar
      rw [List.map_cons,List.foldl_cons,List.foldl_cons,stored_rename]
      exact ih _
  unfold step
  rw [sent_rename,hserve]
  simp only [Answer.rename,hcookies,
    readable_rename ((hρ "").mpr rfl) (blank_serve s call _)]

/-- What a page sees in any sequence of calls does not depend on the refresh
tokens: a service that hands out others shows it the same, and only the cookie
differs. -/
theorem run_rename (hρ : ∀ t, ρ t="" ↔ t="") (h : Renames ρ upstream upstream')
    (calls : List Call) (s : σ) (jar : Jar) :
    run lib settings upstream' calls s (jar.rename ρ)=
      ((run lib settings upstream calls s jar).1,(run lib settings upstream calls s jar).2.1,
        (run lib settings upstream calls s jar).2.2.rename ρ) := by
  induction calls generalizing s jar with
  | nil => rfl
  | cons call calls ih =>
    simp only [run,step_rename hρ h,ih]

end Renaming

end BackendPlatform.BrowserSessions
