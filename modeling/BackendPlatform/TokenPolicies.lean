import BackendPlatform.SharedRedis
import Mathlib.Data.Int.Notation
import Mathlib.Data.Option.Basic

/-!
# Three validators of access tokens

Authentication service, gateway and user service decode access tokens with
validators of their own. The first one insists on the types of the claims and
never reads `jti` as an id; the other two turn every claim into a text and
read all three ids. Tokens are judged alike exactly when those two demands
coincide.
-/

set_option autoImplicit false

namespace BackendPlatform.TokenPolicies

open SharedRedis

section Claims

/-- A decoded JSON value; a float by its text. -/
inductive Json where
  | null
  | bool (value : Bool)
  | int (value : ℤ)
  | float (text : String)
  | str (text : String)
  | arr (items : List Json)
  | obj (members : List (String×Json))

/-- `is None`. -/
def Json.isNone : Json → Bool
  | .null => true
  | _ => false

/-- `isinstance(value, str)`. -/
def Json.isStr : Json → Bool
  | .str _ => true
  | _ => false

/-- Equality with a text. -/
def Json.isText (value : Json) (text : String) : Bool :=
  match value with
  | .str t => t=text
  | _ => false

/-- The claims of a token: an object after decoding, names once. -/
abbrev Payload := List (String×Json)

/-- `payload.get`. -/
def get (payload : Payload) (name : String) : Json :=
  ((payload.find? (·.1=name)).map (·.2)).getD .null

/-- What the validators use from outside: PyJWT's checks apart from `require`
at a time, `UUID` of a text with `none` for a `ValueError`, and `str` of lists
and objects. -/
structure Decoding where
  /-- Signature, times, audience, issuer and whatever else PyJWT checks. -/
  verify : Payload → ℕ → Bool
  /-- `UUID(text).int`. -/
  uuid : String → Option ℕ
  /-- `str` of a list or an object. -/
  container : Json → String

/-- `str(value)`. -/
def pyStr (d : Decoding) : Json → String
  | .null => "None"
  | .bool true => "True"
  | .bool false => "False"
  | .int n => toString n
  | .float text => text
  | .str text => text
  | value => d.container value

/-- `UUID(str(value))`. -/
def uuidOf (d : Decoding) (value : Json) : Option ℕ := d.uuid (pyStr d value)

/-- `jwt.decode` with a list of required claims. -/
def jwtDecode (d : Decoding) (required : List String) (payload : Payload) (time : ℕ) :
    Option Payload :=
  if required.all (fun name => !(get payload name).isNone) && d.verify payload time then
    some payload
  else none

/-- A user and a session. -/
structure Identity where
  /-- The user. -/
  sub : ℕ
  /-- The session. -/
  sid : ℕ
deriving DecidableEq

namespace AuthService

/-- Kinds of tokens. -/
inductive TokenType where
  | access
  | refresh
deriving DecidableEq

/-- The text of a kind. -/
def TokenType.text : TokenType → String
  | .access => "access"
  | .refresh => "refresh"

/-- `TokenClaims`. -/
structure TokenClaims where
  /-- The subject. -/
  sub : String
  /-- The token id. -/
  jti : String
  /-- The kind. -/
  tokenType : TokenType
  /-- The session id. -/
  sessionId : Option String
  /-- The refresh family id. -/
  familyId : Option String

/-- A claim that is a text when it is there. -/
def optionalText : Json → Option (Option String)
  | .null => some none
  | .str text => some (some text)
  | _ => none

/-- `decode_and_validate`. -/
def decodeAndValidate (d : Decoding) (expectedType : TokenType) (payload : Payload) (time : ℕ) :
    Option TokenClaims := do
  let payload ← jwtDecode d ["sub","jti","iss","aud","iat","nbf","exp","type"] payload time
  guard ((get payload "type").isText expectedType.text)
  let .str sub := get payload "sub" | none
  let .str jti := get payload "jti" | none
  guard (expectedType≠.access || !(get payload "sid").isNone)
  guard (expectedType≠.refresh || !(get payload "sid").isNone && !(get payload "family_id").isNone)
  let sessionId ← optionalText (get payload "sid")
  let familyId ← optionalText (get payload "family_id")
  return ⟨sub,jti,expectedType,sessionId,familyId⟩

/-- The claims part of `get_current_user`. -/
def currentIdentity (d : Decoding) (payload : Payload) (time : ℕ) : Option Identity := do
  let claims ← decodeAndValidate d .access payload time
  let userId ← d.uuid claims.sub
  let sessionId ← claims.sessionId
  let sessionId ← d.uuid sessionId
  return ⟨userId,sessionId⟩

end AuthService

/-- `AccessTokenClaims`. -/
structure AccessTokenClaims where
  /-- The subject. -/
  sub : ℕ
  /-- The token id. -/
  jti : ℕ
  /-- The session id. -/
  sid : ℕ

/-- The body shared by the validators of gateway and user service. -/
def decodeWith (d : Decoding) (required : List String) (payload : Payload) (time : ℕ) :
    Option AccessTokenClaims := do
  let payload ← jwtDecode d required payload time
  guard ((get payload "type").isText "access")
  let subject ← uuidOf d (get payload "sub")
  let jti ← uuidOf d (get payload "jti")
  let sid ← uuidOf d (get payload "sid")
  return ⟨subject,jti,sid⟩

/-- The user and the session of decoded claims. -/
def AccessTokenClaims.identity (claims : AccessTokenClaims) : Identity := ⟨claims.sub,claims.sid⟩

namespace ApiGateway

/-- `decode_access_token` of the gateway. -/
def decodeAccessToken (d : Decoding) : Payload → ℕ → Option AccessTokenClaims :=
  decodeWith d ["sub","jti","sid","type","iss","aud","iat","nbf","exp"]

end ApiGateway

namespace UserService

/-- `decode_access_token` of the user service. -/
def decodeAccessToken (d : Decoding) : Payload → ℕ → Option AccessTokenClaims :=
  decodeWith d ["sub","jti","sid","type","iss","aud","iat","nbf","exp"]

end UserService

/-- The three services accept or reject together and agree on user and
session. -/
def Agree (d : Decoding) (payload : Payload) (time : ℕ) : Prop :=
  AuthService.currentIdentity d payload time=
      (ApiGateway.decodeAccessToken d payload time).map AccessTokenClaims.identity ∧
    (ApiGateway.decodeAccessToken d payload time).map AccessTokenClaims.identity=
      (UserService.decodeAccessToken d payload time).map AccessTokenClaims.identity

/-- What all three ask of a token: PyJWT's checks, the claims, the type, and
ids for user and session. -/
def Plausible (d : Decoding) (payload : Payload) (time : ℕ) : Prop :=
  d.verify payload time=true ∧
    (∀ name∈["sub","jti","sid","type","iss","aud","iat","nbf","exp"],
      (get payload name).isNone=false) ∧
    (get payload "type").isText "access"=true ∧ (uuidOf d (get payload "sub")).isSome=true ∧
    (uuidOf d (get payload "sid")).isSome=true

/-- The claims have the types the authentication service insists on. -/
def WellTyped (payload : Payload) : Prop :=
  (get payload "sub").isStr=true ∧ (get payload "jti").isStr=true ∧
    (get payload "sid").isStr=true ∧
    ((get payload "family_id").isNone=true ∨ (get payload "family_id").isStr=true)

variable {d : Decoding} {payload : Payload} {time : ℕ}

theorem optionalText_eq_some {value : Json} {text : Option String} :
    AuthService.optionalText value=some text ↔
      value.isNone=true ∧ text=none ∨ ∃ t,value=.str t ∧ text=some t := by
  cases value with
  | null => simp [AuthService.optionalText,Json.isNone,eq_comm]
  | str t => simp [AuthService.optionalText,Json.isNone,eq_comm]
  | bool | int | float | arr | obj => simp [AuthService.optionalText,Json.isNone]

theorem isStr_iff {value : Json} : value.isStr=true ↔ ∃ t,value=.str t := by
  cases value <;> simp [Json.isStr]

theorem uuidOf_str (text : String) : uuidOf d (.str text)=d.uuid text := rfl

/-- A check that did not stop the computation holds. -/
theorem of_guard {p : Prop} [Decidable p] {u : Unit} (h : (guard p : Option Unit)=some u) : p := by
  by_contra hnot
  simp [guard,hnot] at h

/-- PyJWT accepts a token with the required claims. -/
theorem jwtDecode_eq_some {required : List String} {decoded : Payload} :
    jwtDecode d required payload time=some decoded ↔
      (∀ name∈required,(get payload name).isNone=false) ∧ d.verify payload time=true ∧
        payload=decoded := by
  unfold jwtDecode
  constructor
  · intro h
    split at h
    · rename_i hchecks
      rw [Bool.and_eq_true,List.all_eq_true] at hchecks
      exact ⟨fun name hname => (Bool.not_eq_true' _).mp (hchecks.1 name hname),hchecks.2,
        Option.some.inj h⟩
    · exact absurd h nofun
  · rintro ⟨hrequired,hverify,rfl⟩
    rw [if_pos]
    rw [Bool.and_eq_true,List.all_eq_true]
    exact ⟨fun name hname => (Bool.not_eq_true' _).mpr (hrequired name hname),hverify⟩

/-- What `decode_and_validate` asks of an access token. -/
theorem decodeAndValidate_eq_some {claims : AuthService.TokenClaims} :
    AuthService.decodeAndValidate d .access payload time=some claims ↔
      (d.verify payload time=true ∧
        ∀ name∈["sub","jti","iss","aud","iat","nbf","exp","type"],
          (get payload name).isNone=false) ∧
      (get payload "type").isText "access"=true ∧ get payload "sub"=.str claims.sub ∧
      get payload "jti"=.str claims.jti ∧ claims.tokenType=.access ∧
      (∃ sid,get payload "sid"=.str sid ∧ claims.sessionId=some sid) ∧
      AuthService.optionalText (get payload "family_id")=some claims.familyId := by
  obtain ⟨csub,cjti,ctype,csid,cfamily⟩ := claims
  unfold AuthService.decodeAndValidate
  constructor
  · intro h
    obtain ⟨decoded,hdecoded,h⟩ := Option.bind_eq_some_iff.mp h
    obtain ⟨hrequired,hverify,rfl⟩ := jwtDecode_eq_some.mp hdecoded
    obtain ⟨_,htype,h⟩ := Option.bind_eq_some_iff.mp h
    have htype := of_guard htype
    cases hsub : get payload "sub" with
    | str sub =>
      cases hjti : get payload "jti" with
      | str jti =>
        simp only [hsub,hjti] at h
        obtain ⟨_,hsid,h⟩ := Option.bind_eq_some_iff.mp h
        obtain ⟨_,_,h⟩ := Option.bind_eq_some_iff.mp h
        obtain ⟨sid,hs,h⟩ := Option.bind_eq_some_iff.mp h
        obtain ⟨family,hf,h⟩ := Option.bind_eq_some_iff.mp h
        obtain ⟨rfl,rfl,rfl,rfl,rfl⟩ := AuthService.TokenClaims.mk.inj (Option.some.inj h)
        rcases optionalText_eq_some.mp hs with ⟨hnone,-⟩ | hs
        · rw [hnone] at hsid
          exact absurd (of_guard hsid) (by decide)
        · exact ⟨⟨hverify,hrequired⟩,htype,rfl,rfl,rfl,hs,hf⟩
      | _ => simp [hsub,hjti] at h
    | _ => simp [hsub] at h
  · rintro ⟨⟨hverify,hrequired⟩,htype,hsub,hjti,htok,⟨sid,hsid,hs⟩,hf⟩
    dsimp only at hsub hjti htok hs hf
    subst htok hs
    have hdecoded := jwtDecode_eq_some.mpr ⟨hrequired,hverify,rfl⟩
    have hsession : AuthService.optionalText (.str sid)=some (some sid) := rfl
    rw [hdecoded]
    simp [htype,hsub,hjti,hsid,hf,hsession,Json.isNone,AuthService.TokenType.text]

/-- Whom the authentication service takes a token for. -/
theorem currentIdentity_eq_some {a b : ℕ} :
    AuthService.currentIdentity d payload time=some ⟨a,b⟩ ↔
      Plausible d payload time ∧ WellTyped payload ∧ uuidOf d (get payload "sub")=some a ∧
        uuidOf d (get payload "sid")=some b := by
  constructor
  · intro h
    obtain ⟨claims,hclaims,h⟩ := Option.bind_eq_some_iff.mp h
    obtain ⟨⟨hverify,hrequired⟩,htype,hsub,hjti,-,⟨sid,hsid,hs⟩,hf⟩ :=
      decodeAndValidate_eq_some.mp hclaims
    obtain ⟨user,huser,h⟩ := Option.bind_eq_some_iff.mp h
    obtain ⟨text,htext,h⟩ := Option.bind_eq_some_iff.mp h
    obtain ⟨session,hsession,h⟩ := Option.bind_eq_some_iff.mp h
    obtain ⟨rfl,rfl⟩ := Identity.mk.inj (Option.some.inj h)
    obtain rfl := Option.some.inj (hs.symm.trans htext)
    have hsubId : uuidOf d (get payload "sub")=some user := by
      rw [hsub]
      exact huser
    have hsidId : uuidOf d (get payload "sid")=some session := by
      rw [hsid]
      exact hsession
    have hfamily : (get payload "family_id").isNone=true ∨ (get payload "family_id").isStr=true := by
      rcases optionalText_eq_some.mp hf with ⟨hnone,-⟩ | ⟨t,ht,-⟩
      · exact .inl hnone
      · exact .inr (isStr_iff.mpr ⟨t,ht⟩)
    have hthere : ∀ name∈["sub","jti","sid","type","iss","aud","iat","nbf","exp"],
        (get payload name).isNone=false := by
      intro name hname
      by_cases hname' : name="sid"
      · rw [hname',hsid]
        rfl
      · refine hrequired name ?_
        simp only [List.mem_cons,List.not_mem_nil,or_false] at hname ⊢
        tauto
    exact ⟨⟨hverify,hthere,htype,by simp [hsubId],by simp [hsidId]⟩,
      ⟨isStr_iff.mpr ⟨_,hsub⟩,isStr_iff.mpr ⟨_,hjti⟩,isStr_iff.mpr ⟨_,hsid⟩,hfamily⟩,
      hsubId,hsidId⟩
  · rintro ⟨⟨hverify,hthere,htype,-,-⟩,⟨hsub,hjti,hsid,hfamily⟩,ha,hb⟩
    obtain ⟨sub,hsub⟩ := isStr_iff.mp hsub
    obtain ⟨jti,hjti⟩ := isStr_iff.mp hjti
    obtain ⟨sid,hsid⟩ := isStr_iff.mp hsid
    obtain ⟨family,hf⟩ : ∃ family,
        AuthService.optionalText (get payload "family_id")=some family := by
      rcases hfamily with hnone | hstr
      · exact ⟨none,optionalText_eq_some.mpr (.inl ⟨hnone,rfl⟩)⟩
      · obtain ⟨t,ht⟩ := isStr_iff.mp hstr
        exact ⟨some t,optionalText_eq_some.mpr (.inr ⟨t,ht,rfl⟩)⟩
    have hrequired : ∀ name∈["sub","jti","iss","aud","iat","nbf","exp","type"],
        (get payload name).isNone=false := by
      intro name hname
      refine hthere name ?_
      simp only [List.mem_cons,List.not_mem_nil,or_false] at hname ⊢
      tauto
    have hclaims : AuthService.decodeAndValidate d .access payload time=
        some ⟨sub,jti,.access,some sid,family⟩ :=
      decodeAndValidate_eq_some.mpr
        ⟨⟨hverify,hrequired⟩,htype,hsub,hjti,rfl,⟨sid,hsid,rfl⟩,hf⟩
    rw [hsub,uuidOf_str] at ha
    rw [hsid,uuidOf_str] at hb
    simp [AuthService.currentIdentity,hclaims,ha,hb]

/-- Whom gateway and user service take a token for. -/
theorem decodeAccessToken_eq_some {a b : ℕ} :
    (ApiGateway.decodeAccessToken d payload time).map AccessTokenClaims.identity=some ⟨a,b⟩ ↔
      Plausible d payload time ∧ (uuidOf d (get payload "jti")).isSome=true ∧
        uuidOf d (get payload "sub")=some a ∧ uuidOf d (get payload "sid")=some b := by
  constructor
  · intro h
    obtain ⟨claims,hclaims,hidentity⟩ := Option.map_eq_some_iff.mp h
    obtain ⟨decoded,hdecoded,hclaims⟩ := Option.bind_eq_some_iff.mp hclaims
    obtain ⟨hrequired,hverify,rfl⟩ := jwtDecode_eq_some.mp hdecoded
    obtain ⟨_,htype,hclaims⟩ := Option.bind_eq_some_iff.mp hclaims
    obtain ⟨sub,hsub,hclaims⟩ := Option.bind_eq_some_iff.mp hclaims
    obtain ⟨jti,hjti,hclaims⟩ := Option.bind_eq_some_iff.mp hclaims
    obtain ⟨sid,hsid,hclaims⟩ := Option.bind_eq_some_iff.mp hclaims
    obtain rfl := Option.some.inj hclaims
    obtain ⟨rfl,rfl⟩ := Identity.mk.inj hidentity
    exact ⟨⟨hverify,hrequired,of_guard htype,by simp [hsub],by simp [hsid]⟩,
      by simp [hjti],hsub,hsid⟩
  · rintro ⟨⟨hverify,hrequired,htype,-,-⟩,hjti,hsub,hsid⟩
    obtain ⟨jti,hjti⟩ := Option.isSome_iff_exists.mp hjti
    have hdecoded := jwtDecode_eq_some.mpr ⟨hrequired,hverify,rfl⟩
    simp [ApiGateway.decodeAccessToken,decodeWith,hdecoded,htype,hsub,hjti,hsid,
      AccessTokenClaims.identity]

/-- The services judge a token alike exactly when, for a token all three find
plausible, the claims are well typed just in case `jti` is an id. -/
theorem one_policy_iff (d : Decoding) (payload : Payload) (time : ℕ) :
    Agree d payload time ↔ (Plausible d payload time →
      (WellTyped payload ↔ (uuidOf d (get payload "jti")).isSome=true)) := by
  constructor
  · rintro ⟨hsame,-⟩ hsound
    obtain ⟨a,ha⟩ := Option.isSome_iff_exists.mp hsound.2.2.2.1
    obtain ⟨b,hb⟩ := Option.isSome_iff_exists.mp hsound.2.2.2.2
    constructor
    · intro htyped
      have hauth := currentIdentity_eq_some.mpr ⟨hsound,htyped,ha,hb⟩
      exact (decodeAccessToken_eq_some.mp (hsame.symm.trans hauth)).2.1
    · intro hjti
      have hgateway := decodeAccessToken_eq_some.mpr ⟨hsound,hjti,ha,hb⟩
      exact (currentIdentity_eq_some.mp (hsame.trans hgateway)).2.1
  · intro hcondition
    refine ⟨?_,rfl⟩
    apply Option.ext
    rintro ⟨a,b⟩
    constructor
    · intro hauth
      obtain ⟨hsound,htyped,ha,hb⟩ := currentIdentity_eq_some.mp hauth
      exact decodeAccessToken_eq_some.mpr ⟨hsound,(hcondition hsound).mp htyped,ha,hb⟩
    · intro hgateway
      obtain ⟨hsound,hjti,ha,hb⟩ := decodeAccessToken_eq_some.mp hgateway
      exact currentIdentity_eq_some.mpr ⟨hsound,(hcondition hsound).mpr hjti,ha,hb⟩

end Claims

section Samples

/-- `int(digits, 16)` of ASCII texts without sign and blanks. -/
def hexNumber (digits : List Char) : Option ℕ :=
  digits.foldl (fun value c =>
    let digit := "0123456789abcdef".toList.idxOf c.toLower
    if digit<16 then value.map fun n => n*16+digit else none) (some 0)

/-- `UUID(text).int` of texts without `urn:` and `uuid:`. -/
def plainUuid (text : String) : Option ℕ :=
  let hex := (stripChars (fun c => c = '\x7b' || c = '\x7d') text).toList.filter (· ≠ '-')
  if hex.length=32 then hexNumber hex else none

/-- Tokens that PyJWT accepts, ids in their usual form. -/
def sampleDecoding : Decoding := ⟨fun _ _ => true,plainUuid,fun _ => "[]"⟩

/-- Claims of an access token. -/
def sampleClaims (jti familyId : Json) : Payload :=
  [("sub",.str "00000000-0000-4000-8000-000000000001"),("jti",jti),
    ("sid",.str "00000000-0000-4000-8000-000000000002"),("type",.str "access"),
    ("iss",.str "auth-service"),("aud",.str "platform"),("iat",.int 1),("nbf",.int 1),
    ("exp",.int 2),("family_id",familyId)]

/-- A token id that is no UUID satisfies the authentication service only; a
family id that is no text satisfies the others only. -/
theorem judged_differently :
    ¬Agree sampleDecoding (sampleClaims (.str "session-1") .null) 1 ∧
      ¬Agree sampleDecoding
        (sampleClaims (.str "00000000-0000-4000-8000-000000000003") (.int 7)) 1 := by
  have hdiffer : ∀ payload,
      (AuthService.currentIdentity sampleDecoding payload 1).isSome≠
        (ApiGateway.decodeAccessToken sampleDecoding payload 1).isSome →
      ¬Agree sampleDecoding payload 1 := by
    rintro payload hne ⟨hsame,-⟩
    rw [hsame,Option.isSome_map] at hne
    exact hne rfl
  exact ⟨hdiffer _ (by decide),hdiffer _ (by decide)⟩

end Samples

end BackendPlatform.TokenPolicies
