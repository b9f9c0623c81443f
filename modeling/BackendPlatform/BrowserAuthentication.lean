import BackendPlatform.BrowserSessions
import BackendPlatform.ServerRuns

/-!
# Browsers signed in to the authentication service

The endpoints of the authentication service that the gateway calls for
browsers, over the flows of the service. The service hands refresh tokens out
only where the gateway takes them out again, so a page that signs in, renews
its session and signs out learns nothing about them.
-/

set_option autoImplicit false

namespace BackendPlatform.BrowserAuthentication

open AuthRecords AuthEffects AuthServices AuthFlows ServerRuns
open ClientAddresses (AddressLibrary PeerAddress getHeader getClientIp)
open RefreshTokenService BrowserSessions

section Service

/-- The texts of tokens. -/
structure Wire where
  /-- The text of an access token. -/
  access : RawToken → String
  /-- The text of a refresh token. -/
  refresh : RawToken → String
  /-- What a text is read as. -/
  read : String → RawToken

/-- The validation of the bodies that pages send; `none` is rejected. -/
structure Forms where
  /-- `RegisterRequest`. -/
  register : Body → Option (String×String)
  /-- `LoginRequest`. -/
  login : Body → Option (String×String)
  /-- `LoginTwoFactorRequest`. -/
  loginTwoFactor : Body → Option (String×Option String×Option String)

/-- What is outside the service when a request arrives. -/
structure Arrival where
  /-- The id of the request. -/
  requestId : String
  /-- The answers to the effects of the request. -/
  choices : List ℕ
  /-- What the rate limiter of the endpoint raises. -/
  limited : Option GatewayFailure
  /-- What the client of the gateway raises instead of the answer. -/
  lost : Option GatewayFailure

/-- The deployment of the service. -/
structure Front where
  /-- Its settings. -/
  deployment : Deployment
  /-- How addresses are read. -/
  lib : AddressLibrary
  /-- `TRUSTED_PROXY_IPS`. -/
  trustedProxyIps : Option (List String)
  /-- The gateway. -/
  gateway : PeerAddress
  /-- Whether FastAPI reads a body with this `content-type` as JSON. -/
  parses : Option String → Bool
  /-- The validation of bodies. -/
  forms : Forms

/-- `RefreshTokenRequest`. -/
def refreshTokenRequest (wire : Wire) : Body → Option AuthFlows.Request
  | .json (.dict items) =>
    if items.all (·.1="refresh_token") then
      match getText items "refresh_token" with
      | some token => if 32≤token.length then some (.refreshTokens (wire.read token)) else none
      | none => none
    else none
  | _ => none

/-- `RevokeTokenRequest`; the gateway sends `revoke_family` as a boolean. -/
def revokeTokenRequest (wire : Wire) : Body → Option AuthFlows.Request
  | .json (.dict items) =>
    if items.all fun i => i.1="refresh_token" || i.1="revoke_family" then
      match getText items "refresh_token",(getItem items "revoke_family").getD (.bool true) with
      | some token,.bool family =>
        if 32≤token.length then some (.revokeRefreshToken (wire.read token) family) else none
      | _,_ => none
    else none
  | _ => none

/-- The request behind a path and a body; no endpoint takes a body that is
not read as JSON. -/
def readRequest (front : Front) (wire : Wire) (path : String) (contentType : Option String)
    (body : Body) : Option AuthFlows.Request :=
  if !front.parses contentType then none
  else if path="/v1/auth/register" then
    (front.forms.register body).map fun form => .register form.1 form.2
  else if path="/v1/auth/login" then
    (front.forms.login body).map fun form => .login form.1 form.2
  else if path="/v1/auth/login/2fa" then
    (front.forms.loginTwoFactor body).map fun form =>
      .verifyLoginChallenge form.1 form.2.1 form.2.2
  else if path="/v1/tokens/refresh" then refreshTokenRequest wire body
  else if path="/v1/tokens/revoke" then revokeTokenRequest wire body
  else none

/-- `TokenPairResponse`. -/
def tokenPairResponse (wire : Wire) (pair : TokenPair) : Items :=
  [("access_token",.str (wire.access pair.accessToken)),
    ("refresh_token",.str (wire.refresh pair.refreshToken)),("token_type",.str "Bearer"),
    ("expires_in",.int pair.accessExpiresIn)]

/-- The `AppException` of a failure; `none` is an error no handler knows. -/
def appException : Failure → Option GatewayFailure
  | .unauthorized message => some ⟨message,"UNAUTHORIZED",401⟩
  | .invalidCredentials => some ⟨"Invalid email or password","INVALID_CREDENTIALS",401⟩
  | .userAlreadyExists => some ⟨"User already exists","USER_ALREADY_EXISTS",409⟩
  | .accountLocked message => some ⟨message,"ACCOUNT_LOCKED",423⟩
  | .accountLoginBlocked message => some ⟨message,"ACCOUNT_LOGIN_LOCKED",403⟩
  | .passwordResetFlowBlocked message => some ⟨message,"RESET_FLOW_BLOCKED",403⟩
  | .badRequest message => some ⟨message,"BAD_REQUEST",400⟩
  | .serviceUnavailable message => some ⟨message,"SERVICE_UNAVAILABLE",503⟩
  | .unknownUserPasswordReset =>
    some ⟨"No user is registered with this email address.","USER_NOT_FOUND",404⟩
  | .invalidToken message => some ⟨message,"INVALID_TOKEN",401⟩
  | .tokenReuseDetected _ _ => some ⟨"Refresh token reuse detected","TOKEN_REUSE_DETECTED",401⟩
  | .invalidTwoFactorCode => some ⟨"Invalid two-factor code","INVALID_2FA_CODE",401⟩
  | .twoFactorNotEnabled =>
    some ⟨"Two-factor authentication is not enabled","2FA_NOT_ENABLED",400⟩
  | .twoFactorAlreadyEnabled =>
    some ⟨"Two-factor authentication is already enabled","2FA_ALREADY_ENABLED",409⟩
  | .invalidChallenge => some ⟨"Invalid or expired challenge","INVALID_CHALLENGE",401⟩
  | _ => none

/-- An answer in JSON. -/
def jsonResponse (statusCode : ℕ) (items : Items) : ProxiedResponse :=
  ⟨statusCode,.json (.dict items),[("content-type","application/json")]⟩

/-- `ErrorResponse`. -/
def errorResponse (requestId : String) (failure : GatewayFailure) : ProxiedResponse :=
  jsonResponse failure.statusCode [("error_code",.str failure.errorCode),
    ("message",.str failure.message),("request_id",.str requestId)]

/-- An error no handler knows. -/
def internalError : GatewayFailure := ⟨"Internal server error","INTERNAL_SERVER_ERROR",500⟩

/-- A rejected body. -/
def validationError : GatewayFailure := ⟨"Request validation failed","VALIDATION_ERROR",422⟩

/-- `LoginResponse`; a sign-in without tokens and challenge is an error. -/
def loginResponse (wire : Wire) (result : AuthService.LoginStepResult) : Option Items :=
  if result.requires2fa then
    some [("requires_2fa",.bool true),
      ("challenge_id",(result.challengeId.map PyValue.str).getD .none),("tokens",.none)]
  else result.tokens.map fun pair =>
    [("requires_2fa",.bool false),("challenge_id",.none),
      ("tokens",.dict (tokenPairResponse wire pair))]

/-- The answer of an endpoint. -/
def okResponse (wire : Wire) (requestId : String) : AuthFlows.Request → Response → ProxiedResponse
  | .register _ _,_ => jsonResponse 201 [("status",.str "created")]
  | .login _ _,.login result => match loginResponse wire result with
    | some items => jsonResponse 200 items
    | none => errorResponse requestId internalError
  | .verifyLoginChallenge _ _ _,.tokens pair => jsonResponse 200 (tokenPairResponse wire pair)
  | .refreshTokens _,.tokens pair => jsonResponse 200 (tokenPairResponse wire pair)
  | .revokeRefreshToken _ _,_ => jsonResponse 200 [("message",.str "Refresh token revoked")]
  | _,_ => errorResponse requestId internalError

/-- The answer to a request. -/
def response (wire : Wire) (requestId : String) (request : AuthFlows.Request) :
    Except Failure Response → ProxiedResponse
  | .ok answer => okResponse wire requestId request answer
  | .error failure => errorResponse requestId ((appException failure).getD internalError)

/-- One request at an endpoint. -/
def handle (front : Front) (wire : Wire) (arrival : Arrival) (r : UpstreamRequest)
    (s : ServerState) : ProxiedResponse×ServerState :=
  let headers := r.headers.map fun h => (ClientAddresses.lowerName h.1,h.2)
  let ip := getClientIp front.lib ⟨headers,some front.gateway⟩ front.trustedProxyIps
  match arrival.limited with
  | some failure => (errorResponse arrival.requestId failure,s)
  | none => match readRequest front wire r.path (getHeader headers "content-type") r.body with
    | none => (errorResponse arrival.requestId validationError,s)
    | some request =>
      let client : AuthFlows.ClientRequest := ⟨request,some ip,getHeader headers "user-agent"⟩
      (response wire arrival.requestId request
          (s.serve front.deployment client arrival.choices).1,
        s.next front.deployment (.call client arrival.choices))

/-- The authentication service behind the gateway: its state, and what is
outside it for each request to come. -/
def authentication (front : Front) (wire : Wire) : Upstream (ServerState×List Arrival)
  | (s,[]),_ => (.error ⟨"Upstream request failed","UPSTREAM_ERROR",502⟩,s,[])
  | (s,arrival::arrivals),r => match arrival.lost with
    | some failure => (.error failure,(handle front wire arrival r s).2,arrivals)
    | none =>
      (.ok (handle front wire arrival r s).1,(handle front wire arrival r s).2,arrivals)

end Service

section Renaming

variable {ρ : String → String} {front : Front} {wire wire' : Wire}

/-- The same texts but for refresh tokens. -/
structure Wire.Renames (ρ : String → String) (wire wire' : Wire) : Prop where
  /-- Access tokens have the same texts. -/
  access : ∀ token, wire'.access token=wire.access token
  /-- Refresh tokens have other ones. -/
  refresh : ∀ token, wire'.refresh token=ρ (wire.refresh token)
  /-- They are read as the same tokens. -/
  read : ∀ text, wire'.read (ρ text)=wire.read text
  /-- They are as long. -/
  length : ∀ text, (ρ text).length=text.length

/-- Renaming a value leaves the keys. -/
theorem all_renameAt (items : Items) (p : String → Bool) :
    (renameAt ρ items).all (fun i => p i.1)=items.all fun i => p i.1 := by
  unfold renameAt
  cases getText items "refresh_token" with
  | none => rfl
  | some token =>
    show (assign items "refresh_token" (.str (ρ token))).all _=_
    simp only [assign,List.all_map]
    refine List.all_congr rfl fun i => ?_
    by_cases h : i.1="refresh_token"
    · simp [h]
    · simp [h]

/-- The refresh token of a renamed body is the renamed one. -/
theorem getText_renameAt (items : Items) :
    getText (renameAt ρ items) "refresh_token"=(getText items "refresh_token").map ρ := by
  unfold renameAt
  cases htext : getText items "refresh_token" with
  | none => exact htext
  | some token => exact getText_assign_self htext

/-- The other members of a renamed body are as they were. -/
theorem getItem_renameAt (items : Items) {key : String} (hne : key≠"refresh_token") :
    getItem (renameAt ρ items) key=getItem items key := by
  unfold renameAt
  cases getText items "refresh_token" with
  | none => rfl
  | some token => exact getItem_assign_of_ne hne

/-- A renewal is read from the renamed body as from the first one. -/
theorem refreshTokenRequest_rename (hwire : wire.Renames ρ wire') (items : Items) :
    refreshTokenRequest wire' (.json (.dict (renameAt ρ items)))=
      refreshTokenRequest wire (.json (.dict items)) := by
  simp only [refreshTokenRequest,all_renameAt items fun key => decide (key="refresh_token"),
    getText_renameAt]
  cases getText items "refresh_token" with
  | none => rfl
  | some token => simp only [Option.map_some,hwire.length,hwire.read]

/-- A sign-out is read from the renamed body as from the first one. -/
theorem revokeTokenRequest_rename (hwire : wire.Renames ρ wire') (items : Items) :
    revokeTokenRequest wire' (.json (.dict (renameAt ρ items)))=
      revokeTokenRequest wire (.json (.dict items)) := by
  simp only [revokeTokenRequest,all_renameAt items fun key =>
    decide (key="refresh_token") || decide (key="revoke_family"),getText_renameAt,
    getItem_renameAt items (show "revoke_family"≠"refresh_token" by decide)]
  cases getText items "refresh_token" with
  | none => rfl
  | some token =>
    cases (getItem items "revoke_family").getD (.bool true) with
    | bool family => simp only [Option.map_some,hwire.length,hwire.read]
    | _ => rfl

/-- A request with another text of its refresh token is read the same. -/
theorem readRequest_rename (front : Front) (hwire : wire.Renames ρ wire')
    (contentType : Option String) (r : UpstreamRequest) :
    readRequest front wire' (r.rename ρ).path contentType (r.rename ρ).body=
      readRequest front wire r.path contentType r.body := by
  obtain ⟨path,body,headers,cookie⟩ := r
  have hpage : presenting path=false → readRequest front wire' path contentType body=
      readRequest front wire path contentType body := by
    intro hpath
    simp only [presenting,Bool.or_eq_false_iff,decide_eq_false_iff_not] at hpath
    simp only [readRequest,if_neg hpath.1,if_neg hpath.2]
  show readRequest front wire' path contentType _=_
  cases hpath : presenting path with
  | false => rw [rename_body_of_page hpath,hpage hpath]
  | true =>
    have hother : path≠"/v1/auth/register" ∧ path≠"/v1/auth/login" ∧
        path≠"/v1/auth/login/2fa" := by
      refine ⟨?_,?_,?_⟩ <;> rintro rfl <;> exact absurd hpath (by decide)
    obtain ⟨hregister,hlogin,htwoFactor⟩ := hother
    simp only [readRequest,if_neg hregister,if_neg hlogin,if_neg htwoFactor]
    cases body with
    | json value =>
      cases value with
      | dict items =>
        simp only [UpstreamRequest.rename,hpath,if_true,refreshTokenRequest_rename hwire,
          revokeTokenRequest_rename hwire]
      | _ => rfl
    | _ => rfl

/-- An error hands no token out. -/
theorem errorResponse_rename (path requestId : String) (failure : GatewayFailure) :
    (errorResponse requestId failure).rename ρ path=errorResponse requestId failure := by
  simp [errorResponse,jsonResponse,ProxiedResponse.rename,renameTokens,renameAt,getDict,getText,
    getItem]

/-- The two places of refresh tokens. -/
theorem renameTokens_pair (hwire : wire.Renames ρ wire') (pair : TokenPair) :
    renameTokens ρ (tokenPairResponse wire pair)=tokenPairResponse wire' pair := by
  simp [tokenPairResponse,renameTokens,renameAt,getDict,getText,getItem,assign,hwire.access,
    hwire.refresh]

/-- A login result on the renamed wire is the renamed result. -/
theorem renameTokens_login (hwire : wire.Renames ρ wire') (result : AuthService.LoginStepResult) :
    (loginResponse wire result).map (renameTokens ρ)=loginResponse wire' result := by
  unfold loginResponse
  split
  · simp [renameTokens,renameAt,getDict,getText,getItem]
  · cases result.tokens with
    | none => rfl
    | some pair =>
      simp [tokenPairResponse,renameTokens,renameAt,getDict,getText,getItem,assign,hwire.access,
        hwire.refresh]

/-- The answer on an issuing path carries the renamed tokens. -/
theorem jsonResponse_rename {path : String} (hpath : issuing path=true) (items : Items) :
    (jsonResponse 200 items).rename ρ path=jsonResponse 200 (renameTokens ρ items) := by
  have hjson : isJson (sanitizeResponseHeaders [("content-type","application/json")])=true := by
    decide
  simp [jsonResponse,ProxiedResponse.rename,hpath,hjson]

/-- The answers on the other paths carry none to rename. -/
theorem jsonResponse_rename_of_not {path : String} (hpath : issuing path=false) (statusCode : ℕ)
    (items : Items) :
    (jsonResponse statusCode items).rename ρ path=jsonResponse statusCode items := by
  simp [jsonResponse,ProxiedResponse.rename,hpath]

/-- A request of an issuing path. -/
def Matches (path : String) : AuthFlows.Request → Prop
  | .login _ _ => issuing path=true
  | .verifyLoginChallenge _ _ _ => issuing path=true
  | .refreshTokens _ => issuing path=true
  | _ => issuing path=false

/-- What is read at a path is a request of that path. -/
theorem readRequest_matches {path : String} {contentType : Option String} {body : Body}
    {request : AuthFlows.Request} (h : readRequest front wire path contentType body=some request) :
    Matches path request := by
  unfold readRequest at h
  split_ifs at h with hparses hregister hlogin htwoFactor hrefresh hrevoke
  · obtain ⟨form,_,rfl⟩ := Option.map_eq_some_iff.mp h
    rw [hregister]
    show issuing _=false
    decide
  · obtain ⟨form,_,rfl⟩ := Option.map_eq_some_iff.mp h
    rw [hlogin]
    show issuing _=true
    decide
  · obtain ⟨form,_,rfl⟩ := Option.map_eq_some_iff.mp h
    rw [htwoFactor]
    show issuing _=true
    decide
  · unfold refreshTokenRequest at h
    split at h
    · split at h
      · split at h
        · split at h
          · cases h
            rw [hrefresh]
            show issuing _=true
            decide
          · cases h
        · cases h
      · cases h
    · cases h
  · unfold revokeTokenRequest at h
    split at h
    · split at h
      · split at h
        · split at h
          · cases h
            rw [hrevoke]
            show issuing _=false
            decide
          · cases h
        · cases h
      · cases h
    · cases h

/-- An answer with other texts of refresh tokens. -/
theorem response_rename (hwire : wire.Renames ρ wire') {path : String} (requestId : String)
    {request : AuthFlows.Request} (hmatches : Matches path request)
    (answer : Except Failure Response) :
    response wire' requestId request answer=(response wire requestId request answer).rename ρ
      path := by
  have hinternal : (errorResponse requestId internalError).rename ρ path=
      errorResponse requestId internalError := errorResponse_rename path requestId _
  cases answer with
  | error failure =>
    exact (errorResponse_rename path requestId _).symm
  | ok answer =>
    cases request with
    | register email password =>
      exact (jsonResponse_rename_of_not hmatches 201 _).symm
    | revokeRefreshToken token family => exact (jsonResponse_rename_of_not hmatches 200 _).symm
    | login email password =>
      cases answer with
      | login result =>
        have hlogin := renameTokens_login hwire result
        simp only [response,okResponse,← hlogin]
        cases loginResponse wire result with
        | none => exact hinternal.symm
        | some items => exact (jsonResponse_rename hmatches items).symm
      | _ => exact hinternal.symm
    | verifyLoginChallenge challengeId totp backup =>
      cases answer with
      | tokens pair =>
        simp only [response,okResponse,jsonResponse_rename hmatches,renameTokens_pair hwire]
      | _ => exact hinternal.symm
    | refreshTokens token =>
      cases answer with
      | tokens pair =>
        simp only [response,okResponse,jsonResponse_rename hmatches,renameTokens_pair hwire]
      | _ => exact hinternal.symm
    | _ => exact hinternal.symm

/-- The service answers the renamed request with the renamed answer and the same
state. -/
theorem handle_rename (hwire : wire.Renames ρ wire') (arrival : Arrival) (r : UpstreamRequest)
    (s : ServerState) :
    handle front wire' arrival (r.rename ρ) s=((handle front wire arrival r s).1.rename ρ r.path,
      (handle front wire arrival r s).2) := by
  have hread := readRequest_rename front hwire
    (getHeader (r.headers.map fun h => (ClientAddresses.lowerName h.1,h.2)) "content-type") r
  unfold handle
  cases arrival.limited with
  | some failure => exact Prod.ext (errorResponse_rename _ _ failure).symm rfl
  | none =>
    have hheaders : (r.rename ρ).headers=r.headers := rfl
    simp only [hheaders,hread]
    cases hrequest : readRequest front wire r.path
      (getHeader (r.headers.map fun h => (ClientAddresses.lowerName h.1,h.2)) "content-type")
      r.body with
    | none => exact Prod.ext (errorResponse_rename _ _ validationError).symm rfl
    | some request =>
      exact Prod.ext (response_rename hwire _ (readRequest_matches hrequest) _) rfl

/-- The service with other texts of refresh tokens hands out the others. -/
theorem authentication_renames (hwire : wire.Renames ρ wire') :
    BrowserSessions.Renames ρ (authentication front wire) (authentication front wire') := by
  rintro ⟨s,arrivals⟩ r
  cases arrivals with
  | nil => rfl
  | cons arrival arrivals =>
    simp only [authentication,handle_rename hwire]
    cases arrival.lost with
    | some failure => rfl
    | none => rfl

/-- Renaming keeps the empty text apart. -/
theorem length_eq_zero (hwire : wire.Renames ρ wire') (text : String) : ρ text="" ↔ text="" := by
  rw [← String.length_eq_zero_iff,← String.length_eq_zero_iff,hwire.length]

/-- In every sequence of calls, whatever the service finds in its state and
whatever fails in between, a page sees the same for any other texts of the
refresh tokens; the cookie holds the other text of the same token. -/
theorem page_never_sees_tokens (lib : AddressLibrary) (settings : BrowserSessions.Settings)
    (hwire : wire.Renames ρ wire') (calls : List Call) (s : ServerState) (arrivals : List Arrival)
    (jar : Jar) :
    run lib settings (authentication front wire') calls (s,arrivals) (jar.rename ρ)=
      ((run lib settings (authentication front wire) calls (s,arrivals) jar).1,
        (run lib settings (authentication front wire) calls (s,arrivals) jar).2.1,
        (run lib settings (authentication front wire) calls (s,arrivals) jar).2.2.rename ρ) :=
  run_rename (length_eq_zero hwire) (authentication_renames hwire) calls (s,arrivals) jar

end Renaming

section Sample

/-- Another text of a token: the characters from last to first. -/
def reversed (text : String) : String := String.ofList text.toList.reverse

/-- Reversing twice gives the text back. -/
theorem reversed_reversed (text : String) : reversed (reversed text)=text := by
  simp [reversed]

/-- Texts that name the id of a token. -/
def sampleText : RawToken → String
  | .signed payload _ => String.ofList (List.replicate 32 '-')++payload.jti
  | .garbage text => text

/-- The token of the sample account with this id. -/
def sampleToken (jti : String) : RawToken := match sampleRefreshToken with
  | .signed payload encoding => .signed {payload with jti := jti} encoding
  | .garbage text => .garbage text

/-- A service that knows the tokens of the sample account. -/
def sampleWire : Wire where
  access := sampleText
  refresh := sampleText
  read := fun text => sampleToken (String.ofList (text.toList.drop 32))

/-- The same service with other texts of refresh tokens. -/
def sampleWire' : Wire where
  access := sampleText
  refresh := fun token => reversed (sampleText token)
  read := fun text => sampleWire.read (reversed text)

/-- The two sample wires differ by the renaming only. -/
theorem sampleWire_renames : sampleWire.Renames reversed sampleWire' where
  access _ := rfl
  refresh _ := rfl
  read text := congrArg sampleWire.read (reversed_reversed text)
  length text := by simp [reversed,String.length_toList]

/-- The part of the validation that the sample needs. -/
def sampleForms : Forms where
  register := fun _ => none
  login := fun body => match body with
    | .json (.dict items) =>
      (getText items "email").bind fun email =>
        (getText items "password").map fun password => (email,password)
    | _ => none
  loginTwoFactor := fun _ => none

/-- The service of the sample deployment. -/
def sampleFront : Front where
  deployment := sampleDeployment
  lib := ClientAddresses.ipv4Library
  trustedProxyIps := none
  gateway := ClientAddresses.sampleGateway
  parses := fun contentType => contentType="application/json"
  forms := sampleForms

/-- The settings of a gateway. -/
def sampleSettings : BrowserSessions.Settings := ⟨"bp_rt",2592000,none,none⟩

/-- A call of a page. -/
def sampleCall (endpoint : Endpoint) (body : Body) (now : Instant) : Call where
  endpoint := endpoint
  body := body
  request := ⟨[("content-type","application/json")],none⟩
  scheme := "http"
  requestId := none
  refused := none
  now := now

/-- Sign in, renew the session and sign out. -/
def sampleCalls : List Call :=
  [sampleCall .login (.json (.dict [("email",.str "a@b"),("password",.str "password1")])) 0,
    sampleCall .refresh (.text "") 1,sampleCall .revoke (.text "") 2,
    sampleCall .refresh (.text "") 3]

/-- Nothing is limited and nothing is lost. -/
def sampleArrivals : List Arrival := List.replicate 4 ⟨"r",[],none,none⟩

/-- A sign-in, a renewal and a sign-out, seen from the page with either token
text. -/
theorem page_never_sees_tokens_session :
    run ClientAddresses.ipv4Library sampleSettings (authentication sampleFront sampleWire')
        sampleCalls (sampleState [sampleUser] [] [],sampleArrivals) (Jar.rename reversed none)=
      ((run ClientAddresses.ipv4Library sampleSettings (authentication sampleFront sampleWire)
          sampleCalls (sampleState [sampleUser] [] [],sampleArrivals) none).1,
        (run ClientAddresses.ipv4Library sampleSettings (authentication sampleFront sampleWire)
          sampleCalls (sampleState [sampleUser] [] [],sampleArrivals) none).2.1,
        (run ClientAddresses.ipv4Library sampleSettings (authentication sampleFront sampleWire)
          sampleCalls (sampleState [sampleUser] [] [],sampleArrivals) none).2.2.rename reversed) ∧
      (run ClientAddresses.ipv4Library sampleSettings (authentication sampleFront sampleWire)
        sampleCalls (sampleState [sampleUser] [] [],sampleArrivals) none).1.map (·.statusCode)=
        [200,200,200,401] := by
  refine ⟨page_never_sees_tokens _ _ sampleWire_renames _ _ _ _,?_⟩
  decide +kernel

end Sample

end BackendPlatform.BrowserAuthentication
