import Mathlib.Data.List.Basic
import Mathlib.Data.List.DropRight

/-!
# Routes of the gateway

A path is matched against the allowlist as a text and sent as a URL, whose
dot segments are removed on the way. The two agree exactly when the path comes
to a route of the service whose prefix it starts with, as a whole segment, and
never climbs above it again.
-/

set_option autoImplicit false

namespace BackendPlatform.GatewayRoutes

section Paths

/-- `str.split("/")`. -/
def segments : List Char → List (List Char)
  | [] => [[]]
  | c::cs =>
    if c = '/' then []::segments cs
    else match segments cs with
      | [] => [[c]]
      | s::rest => (c::s)::rest

/-- A segment that stays where it is. -/
def isName (s : List Char) : Bool := s≠[ '.'] && s≠[ '.', '.']

/-- A segment that leaves its directory. -/
def isParent (s : List Char) : Bool := s=[ '.', '.']

/-- One segment on the way through a path: `.` stays, `..` drops the segment
before it. -/
def resolveSegment (stack : List (List Char)) (s : List Char) : List (List Char) :=
  if isParent s then stack.tail else if isName s then s::stack else stack

/-- The segments left after removing dot segments; a final dot segment leaves
an empty one. -/
def removeDotSegments (path : List (List Char)) : List (List Char) :=
  (path.foldl resolveSegment []).reverse++
    if (path.getLast?.all isName) then [] else [[]]

/-- An absolute path. -/
def absolutePath (path : List (List Char)) : List Char :=
  if path=[] then [ '/'] else path.flatMap fun s => '/' :: s

/-- The next segments climb out of the current directory. -/
def climbsOut (path : List (List Char)) : Bool :=
  (List.range (path.length+1)).any fun n =>
    (path.take n).countP isName<(path.take n).countP isParent

/-- The segments that no later `..` climbs past. -/
def kept : List (List Char) → List (List Char)
  | [] => []
  | s::rest => if isName s && !climbsOut rest then s::kept rest else kept rest

/-- How many directories above the current one a path climbs. -/
def climbs : List (List Char) → ℕ
  | [] => 0
  | s::rest => if isParent s then climbs rest+1 else if isName s then climbs rest-1 else climbs rest

/-- A parent segment is no name. -/
theorem isName_of_isParent {s : List Char} (h : isParent s=true) : isName s=false := by
  have hs : s=[ '.', '.'] := by simpa [isParent] using h
  subst hs
  decide

/-- A name is no parent segment. -/
theorem isParent_of_isName {s : List Char} (h : isName s=true) : isParent s=false := by
  rw [Bool.eq_false_iff]
  intro hparent
  rw [isName_of_isParent hparent] at h
  cases h

/-- A path climbs more than `m` directories when some part of it does. -/
theorem lt_climbs_iff (path : List (List Char)) : ∀ m, m<climbs path ↔
    ∃ n ≤ path.length,(path.take n).countP isName+m<(path.take n).countP isParent := by
  induction path with
  | nil =>
    intro m
    simp [climbs]
  | cons s rest ih =>
    intro m
    have hsplit : (∃ n ≤ (s::rest).length,((s::rest).take n).countP isName+m<
        ((s::rest).take n).countP isParent) ↔ ∃ n ≤ rest.length,
        (s::rest.take n).countP isName+m<(s::rest.take n).countP isParent := by
      constructor
      · rintro ⟨n,hn,hlt⟩
        cases n with
        | zero => simp at hlt
        | succ n => exact ⟨n,by simpa using hn,by simpa using hlt⟩
      · rintro ⟨n,hn,hlt⟩
        exact ⟨n+1,by simpa using hn,by simpa using hlt⟩
    rw [hsplit]
    simp only [List.countP_cons]
    by_cases hparent : isParent s=true
    · have hname := isName_of_isParent hparent
      simp only [climbs,hparent,hname,if_true]
      cases m with
      | zero =>
        constructor
        · exact fun _ => ⟨0,by omega,by simp⟩
        · exact fun _ => by omega
      | succ m =>
        have hm := ih m
        constructor
        · intro hlt
          obtain ⟨n,hn,hlt⟩ := hm.mp (by omega)
          exact ⟨n,hn,by simp; omega⟩
        · rintro ⟨n,hn,hlt⟩
          have hlt := hm.mpr ⟨n,hn,by simp at hlt; omega⟩
          omega
    · by_cases hname : isName s=true
      · simp only [climbs,hparent,hname,if_true]
        have hm := ih (m+1)
        constructor
        · intro hlt
          obtain ⟨n,hn,hlt⟩ := hm.mp (by simp at hlt; omega)
          exact ⟨n,hn,by simp; omega⟩
        · rintro ⟨n,hn,hlt⟩
          have hlt := hm.mpr ⟨n,hn,by simp at hlt; omega⟩
          simp
          omega
      · simp only [climbs,hparent,hname]
        simpa using ih m

/-- A path climbs out exactly when it climbs by at least one directory. -/
theorem climbsOut_iff (path : List (List Char)) : climbsOut path=true ↔ 0<climbs path := by
  have hm := lt_climbs_iff path 0
  rw [hm]
  unfold climbsOut
  rw [List.any_eq_true]
  constructor
  · rintro ⟨n,hn,hlt⟩
    have hn := List.mem_range.mp hn
    exact ⟨n,by omega,by simpa using hlt⟩
  · rintro ⟨n,hn,hlt⟩
    exact ⟨n,List.mem_range.mpr (by omega),by simpa using hlt⟩

/-- Resolving a path below a stack drops what the path climbs past and adds
the segments it keeps. -/
theorem foldl_resolveSegment (path : List (List Char)) : ∀ stack,
    path.foldl resolveSegment stack=(kept path).reverse++stack.drop (climbs path) := by
  induction path with
  | nil =>
    intro stack
    rfl
  | cons s rest ih =>
    intro stack
    rw [List.foldl_cons,ih]
    by_cases hparent : isParent s=true
    · have hname := isName_of_isParent hparent
      simp [resolveSegment,kept,climbs,hparent,hname,List.drop_tail]
    · by_cases hname : isName s=true
      · by_cases hclimb : climbsOut rest=true
        · -- a later `..` climbs past this segment
          have hpos := (climbsOut_iff rest).mp hclimb
          obtain ⟨k,hk⟩ : ∃ k,climbs rest=k+1 := ⟨climbs rest-1,by omega⟩
          simp [resolveSegment,kept,climbs,hparent,hname,hclimb,hk]
        · have hzero : climbs rest=0 := by
            have hnot := mt (climbsOut_iff rest).mpr hclimb
            omega
          simp [resolveSegment,kept,climbs,hparent,hname,hclimb,hzero]
      · simp [resolveSegment,kept,climbs,hparent,hname]

/-- Removing dot segments leaves the segments that no later `..` climbs past. -/
theorem removeDotSegments_eq (path : List (List Char)) : removeDotSegments path=kept path++
    if (path.getLast?.all isName) then [] else [[]] := by
  rw [removeDotSegments,foldl_resolveSegment]
  simp

/-- What never climbs out adds no climb to a path before it. -/
theorem climbs_append_of_stays (path : List (List Char)) {after : List (List Char)}
    (h : climbs after=0) : climbs (path++after)=climbs path := by
  induction path with
  | nil => exact h
  | cons s rest ih => simp only [List.cons_append,climbs,ih]

/-- A longer path climbs at least as far. -/
theorem climbs_le_append (path after : List (List Char)) : climbs path≤climbs (path++after) := by
  induction path with
  | nil => exact Nat.zero_le _
  | cons s rest ih =>
    simp only [List.cons_append,climbs]
    split
    · omega
    · split <;> omega

/-- A path that never climbs out climbs by nothing. -/
theorem climbsOut_eq_false_iff (path : List (List Char)) :
    climbsOut path=false ↔ climbs path=0 := by
  have hout := climbsOut_iff path
  rw [Bool.eq_false_iff,ne_eq,hout]
  omega

/-- Nothing is kept of a part that vanishes on its own. -/
theorem kept_append_of_nil {before : List (List Char)} (h : kept before=[])
    (after : List (List Char)) : kept (before++after)=kept after := by
  induction before with
  | nil => rfl
  | cons s rest ih =>
    by_cases hs : (isName s && !climbsOut rest)=true
    · simp [kept,hs] at h
    · have hrest : kept rest=[] := by simpa [kept,hs] using h
      have hs' : ¬(isName s && !climbsOut (rest++after))=true := by
        intro hkept
        simp only [Bool.and_eq_true,Bool.not_eq_true'] at hkept hs
        have hzero := (climbsOut_eq_false_iff (rest++after)).mp hkept.2
        have hle := climbs_le_append rest after
        exact hs ⟨hkept.1,(climbsOut_eq_false_iff rest).mpr (by omega)⟩
      rw [List.cons_append,kept,if_neg hs']
      exact ih hrest

/-- The first segment that is kept: what comes before it vanishes, what comes
after it never climbs out. -/
theorem kept_eq_cons_iff {path rest : List (List Char)} {s : List Char} :
    kept path=s::rest ↔ ∃ before after,path=before++s::after ∧ isName s=true ∧ kept before=[] ∧
      climbsOut after=false ∧ kept after=rest := by
  constructor
  · intro h
    induction path with
    | nil => cases h
    | cons t path ih =>
      by_cases ht : (isName t && !climbsOut path)=true
      · rw [kept,if_pos ht] at h
        obtain ⟨rfl,rfl⟩ := List.cons.inj h
        simp only [Bool.and_eq_true,Bool.not_eq_true'] at ht
        exact ⟨[],path,rfl,ht.1,rfl,ht.2,rfl⟩
      · rw [kept,if_neg ht] at h
        obtain ⟨before,after,rfl,hs,hbefore,hafter,hrest⟩ := ih h
        refine ⟨t::before,after,rfl,hs,?_,hafter,hrest⟩
        -- what follows the kept segment does not help to climb past `t`
        have hstays : climbs (s::after)=0 := by
          have hparent := isParent_of_isName hs
          have hzero := (climbsOut_eq_false_iff after).mp hafter
          simp [climbs,hparent,hs,hzero]
        have hsame : climbsOut before=climbsOut (before++s::after) := by
          rw [Bool.eq_iff_iff,climbsOut_iff,climbsOut_iff,climbs_append_of_stays before hstays]
        rw [kept,hsame,if_neg ht]
        exact hbefore
  · rintro ⟨before,after,rfl,hs,hbefore,hafter,rfl⟩
    rw [kept_append_of_nil hbefore,kept,if_pos (by rw [hs,hafter]; rfl)]

/-- Every path has a segment. -/
theorem segments_ne_nil (l : List Char) : segments l≠[] := by
  cases l with
  | nil => simp [segments]
  | cons c cs =>
    unfold segments
    split
    · simp
    · split <;> simp

/-- No segment contains a slash. -/
theorem slash_notMem_segments (l : List Char) : ∀ s∈segments l, '/' ∉ s := by
  induction l with
  | nil => simp [segments]
  | cons c cs ih =>
    intro s hs
    unfold segments at hs
    split at hs
    · rcases List.mem_cons.mp hs with rfl | hs
      · simp
      · exact ih s hs
    · rename_i hc
      cases hrest : segments cs with
      | nil => exact absurd hrest (segments_ne_nil cs)
      | cons t rest =>
        rw [hrest] at hs ih
        rcases List.mem_cons.mp hs with rfl | hs
        · simp only [List.mem_cons,not_or]
          exact ⟨fun h => hc h.symm,ih t (by simp)⟩
        · exact ih s (List.mem_cons_of_mem t hs)

/-- The segments kept are segments of the path. -/
theorem mem_of_mem_kept {path : List (List Char)} {s : List Char} (h : s∈kept path) : s∈path := by
  induction path with
  | nil => exact absurd h (by simp [kept])
  | cons t rest ih =>
    unfold kept at h
    split at h
    · rcases List.mem_cons.mp h with rfl | h
      · simp
      · exact List.mem_cons_of_mem t (ih h)
    · exact List.mem_cons_of_mem t (ih h)

end Paths

section Routing

/-- A service behind the gateway. -/
inductive Service where
  | auth
  | user
  | notification
deriving DecidableEq

/-- `str.startswith`. -/
def startsWith (text start : List Char) : Bool := start.isPrefixOf text

/-- `str.lstrip("/")`. -/
def lstripSlash (text : List Char) : List Char := text.dropWhile (· = '/')

/-- The path `proxy_request` works with. -/
def proxyPath (fullPath : String) : List Char :=
  let path := '/' :: lstripSlash fullPath.toList
  if startsWith path "/v1/".toList then path else "/v1/".toList++lstripSlash path

/-- Names of the routes of a service. -/
def routeNames : Service → List (List Char)
  | .auth => ["auth".toList,"tokens".toList,"two-factor".toList,"sessions".toList]
  | .user => ["users".toList,"profiles".toList,"roles".toList,"permissions".toList]
  | .notification => ["notify".toList]

/-- `path.startswith` of any of the texts. -/
def startsWithAny (path : List Char) (starts : List String) : Bool :=
  starts.any fun start => startsWith path start.toList

/-- `resolve_service`; `none` is a route that is not found. -/
def resolveService (notificationConfigured : Bool) (path : List Char) : Option Service :=
  if startsWithAny path ["/v1/auth","/v1/tokens"] then some .auth
  else if startsWithAny path ["/v1/two-factor","/v1/sessions"] then some .auth
  else if startsWithAny path ["/v1/users","/v1/profiles"] then some .user
  else if startsWithAny path ["/v1/roles","/v1/permissions"] then some .user
  else if startsWith path "/v1/notify".toList && notificationConfigured then some .notification
  else none

/-- A character a URL may be built from. -/
def isPrintable (c : Char) : Bool := 31<c.toNat && c.toNat≠127

/-- A character that ends the path of a URL. -/
def endsPath (c : Char) : Bool := c = '?' || c = '#'

/-- The path of a URL up to its query or fragment. -/
def urlPath (path : List Char) : List Char := path.takeWhile fun c => !endsPath c

/-- Segments of the path of a URL, the part before the first slash left out. -/
def urlSegments (path : List Char) : List (List Char) := (segments (urlPath path)).tail

/-- The path of the URL `httpx` builds from the address of a service and a
path; `none` is an invalid URL. -/
def sentPath (originLength : ℕ) (path : List Char) : Option (List Char) :=
  if path.all isPrintable && originLength+path.length≤65536 then
    some (absolutePath (removeDotSegments (urlSegments path)))
  else none

/-- `PUBLIC_ENDPOINTS`. -/
def publicEndpoints : List (String×String) :=
  [("POST","/v1/auth/register"),("POST","/v1/auth/login"),("POST","/v1/auth/login/2fa"),
    ("POST","/v1/auth/password/forgot"),("POST","/v1/auth/password/reset"),
    ("POST","/v1/tokens/refresh"),("POST","/v1/tokens/revoke"),
    ("POST","/v1/browser-auth/register"),("POST","/v1/browser-auth/login"),
    ("POST","/v1/browser-auth/login/2fa"),("POST","/v1/browser-auth/refresh"),
    ("POST","/v1/browser-auth/revoke"),("GET","/v1/health/live"),("GET","/v1/health/ready")]

/-- `is_public_endpoint`. -/
def isPublicEndpoint (method : String) (path : List Char) : Bool :=
  let stripped := path.rdropWhile (· = '/')
  let normalized := if stripped=[] then [ '/'] else stripped
  publicEndpoints.any fun endpoint => endpoint.1=method && endpoint.2.toList=normalized

/-- What the gateway finds out about a request before it forwards it. -/
structure Admission where
  /-- The rate limiter lets it pass. -/
  underLimit : Bool
  /-- It carries a valid access token of a living session. -/
  authenticated : Bool

/-- The settings the routes depend on. -/
structure Upstreams where
  /-- The notification service has an address. -/
  notificationConfigured : Bool
  /-- Length of the address of a service: scheme, host and port. -/
  originLength : Service → ℕ

/-- `proxy_request` up to the request it sends: the service and the path that
reaches it. -/
def proxyRequest (upstreams : Upstreams) (admission : Admission) (method fullPath : String) :
    Option (Service×List Char) :=
  let path := proxyPath fullPath
  if admission.underLimit && (isPublicEndpoint method path || admission.authenticated) then
    match resolveService upstreams.notificationConfigured path with
    | some service => (sentPath (upstreams.originLength service) path).map fun sent => (service,sent)
    | none => none
  else none

/-- One of the routes of a service, or a path below one. -/
def Whitelisted (service : Service) (path : List Char) : Prop :=
  ∃ name∈routeNames service,path="/v1/".toList++name ∨
    ("/v1/".toList++name++[ '/'])<+:path

/-- The path starts with the prefix of a route of the service. -/
def Matches (service : Service) (path : List Char) : Prop :=
  ∃ name∈routeNames service,("/v1/".toList++name)<+:path

/-- The path comes to the version, from there to a route of the service, and
never climbs above either again: what it visits before vanishes. -/
def ComesTo (service : Service) (path : List (List Char)) : Prop :=
  ∃ name∈routeNames service,∃ before between after,
    path=before++"v1".toList::(between++name::after) ∧ kept before=[] ∧ kept between=[] ∧
      climbsOut between=false ∧ climbsOut after=false

/-- The path keeps the version and a route of the service in front. -/
theorem comesTo_iff (service : Service) (path : List (List Char)) : ComesTo service path ↔
    ∃ name∈routeNames service,∃ rest,kept path="v1".toList::name::rest := by
  have hnames : ∀ service,∀ name∈routeNames service,isName name=true := by
    intro service
    cases service <;> decide
  constructor
  · rintro ⟨name,hname,before,between,after,rfl,hbefore,hbetween,hstays,hafter⟩
    refine ⟨name,hname,kept after,kept_eq_cons_iff.mpr ⟨before,_,rfl,by decide,hbefore,?_,?_⟩⟩
    · have hparent := isParent_of_isName (hnames service name hname)
      have hzero := (climbsOut_eq_false_iff after).mp hafter
      have hname' : climbs (name::after)=0 := by
        simp [climbs,hparent,hnames service name hname,hzero]
      rw [climbsOut_eq_false_iff,climbs_append_of_stays between hname']
      exact (climbsOut_eq_false_iff between).mp hstays
    · exact kept_eq_cons_iff.mpr ⟨between,after,rfl,hnames service name hname,hbetween,hafter,rfl⟩
  · rintro ⟨name,hname,rest,hkept⟩
    obtain ⟨before,below,rfl,_,hbefore,hbelow,hrest⟩ := kept_eq_cons_iff.mp hkept
    obtain ⟨between,after,rfl,_,hbetween,hafter,_⟩ := kept_eq_cons_iff.mp hrest
    refine ⟨name,hname,before,between,after,rfl,hbefore,hbetween,?_,hafter⟩
    have hle := climbs_le_append between (name::after)
    have hzero := (climbsOut_eq_false_iff _).mp hbelow
    exact (climbsOut_eq_false_iff between).mpr (by omega)

/-- No path starts with prefixes of two services. -/
theorem Matches.unique {service other : Service} {path : List Char} (h : Matches service path)
    (ho : Matches other path) : service=other := by
  obtain ⟨name,hname,hbegins⟩ := h
  obtain ⟨name',hname',hbegins'⟩ := ho
  have hnames : ∀ s t : Service,∀ n∈routeNames s,∀ m∈routeNames t,n<+:m → s=t := by
    intro s t
    cases s <;> cases t <;> decide
  rcases List.prefix_or_prefix_of_prefix hbegins hbegins' with hle|hle
  · exact hnames service other name hname name' hname' ((List.prefix_append_right_inj _).mp hle)
  · exact (hnames other service name' hname' name hname
      ((List.prefix_append_right_inj _).mp hle)).symm

/-- The service that is chosen is the one whose prefix matches. -/
theorem matches_resolveService {notificationConfigured : Bool} {path : List Char}
    {service : Service} (h : resolveService notificationConfigured path=some service) :
    Matches service path := by
  have hstarts : ∀ starts : List String,startsWithAny path starts=true →
      ∃ start∈starts,start.toList<+:path := by
    intro starts hany
    obtain ⟨start,hstart,hbegins⟩ := List.any_eq_true.mp hany
    exact ⟨start,hstart,List.isPrefixOf_iff_prefix.mp hbegins⟩
  unfold resolveService at h
  split at h
  · obtain rfl := Option.some.inj h
    obtain ⟨start,hstart,hbegins⟩ := hstarts _ ‹_›
    rcases List.mem_pair.mp hstart with rfl|rfl
    · exact ⟨"auth".toList,by decide,hbegins⟩
    · exact ⟨"tokens".toList,by decide,hbegins⟩
  · split at h
    · obtain rfl := Option.some.inj h
      obtain ⟨start,hstart,hbegins⟩ := hstarts _ ‹_›
      rcases List.mem_pair.mp hstart with rfl|rfl
      · exact ⟨"two-factor".toList,by decide,hbegins⟩
      · exact ⟨"sessions".toList,by decide,hbegins⟩
    · split at h
      · obtain rfl := Option.some.inj h
        obtain ⟨start,hstart,hbegins⟩ := hstarts _ ‹_›
        rcases List.mem_pair.mp hstart with rfl|rfl
        · exact ⟨"users".toList,by decide,hbegins⟩
        · exact ⟨"profiles".toList,by decide,hbegins⟩
      · split at h
        · obtain rfl := Option.some.inj h
          obtain ⟨start,hstart,hbegins⟩ := hstarts _ ‹_›
          rcases List.mem_pair.mp hstart with rfl|rfl
          · exact ⟨"roles".toList,by decide,hbegins⟩
          · exact ⟨"permissions".toList,by decide,hbegins⟩
        · split at h
          · rename_i hnotify
            obtain rfl := Option.some.inj h
            simp only [Bool.and_eq_true] at hnotify
            exact ⟨"notify".toList,by decide,List.isPrefixOf_iff_prefix.mp hnotify.1⟩
          · cases h

/-- Nothing, or something that continues a path. -/
def Continues (l : List Char) : Prop := l=[] ∨ ∃ rest,l= '/' :: rest

/-- The first segment of a path is determined. -/
theorem segment_unique {a b r t : List Char} (ha : '/' ∉ a) (hb : '/' ∉ b) (hr : Continues r)
    (ht : Continues t) (h : a++r=b++t) : a=b ∧ r=t := by
  have htake : ∀ x y : List Char, '/' ∉ x → Continues y → (x++y).takeWhile (· ≠ '/')=x := by
    intro x y hx hy
    have hall : ∀ c∈x,(c ≠ '/' : Bool)=true := by
      intro c hc
      have hne : c ≠ '/' := by
        rintro rfl
        exact hx hc
      simpa using hne
    rw [List.takeWhile_append_of_pos hall]
    rcases hy with rfl | ⟨rest,rfl⟩
    · simp
    · simp
  have hab : a=b := by
    have hx := htake a r ha hr
    have hy := htake b t hb ht
    rw [h] at hx
    exact hx.symm.trans hy
  subst hab
  exact ⟨rfl,List.append_cancel_left h⟩

/-- Joined segments continue a path with a slash or end it. -/
theorem continues_flatMap (path : List (List Char)) :
    Continues (path.flatMap fun s => '/' :: s) := by
  cases path with
  | nil => exact .inl rfl
  | cons s rest => exact .inr ⟨s++rest.flatMap fun s => '/' :: s,by simp⟩

/-- The route names are single segments. -/
theorem routeName_shape (service : Service) :
    ∀ name∈routeNames service, '/' ∉ name ∧ name≠[] := by
  cases service <;> decide

/-- A path is whitelisted when its first two segments are. -/
theorem whitelisted_iff (service : Service) {path : List (List Char)}
    (hpath : ∀ s∈path, '/' ∉ s) : Whitelisted service (absolutePath path) ↔
      ∃ name∈routeNames service,∃ rest,path="v1".toList::name::rest := by
  have hv : '/' ∉ "v1".toList := by decide
  have hlit : ∀ x : List Char,"/v1/".toList++x= '/' :: ("v1".toList++ '/' :: x) := fun _ => rfl
  constructor
  · rintro ⟨name,hname,hcase⟩
    obtain ⟨hslash,hne⟩ := routeName_shape service name hname
    obtain ⟨tail,htail,heq⟩ : ∃ tail,Continues tail ∧
        absolutePath path= '/' :: ("v1".toList++ '/' :: (name++tail)) := by
      rcases hcase with heq | ⟨rest,hrest⟩
      · exact ⟨[],.inl rfl,by rw [heq,hlit,List.append_nil]⟩
      · exact ⟨ '/' :: rest,.inr ⟨rest,rfl⟩,by rw [← hrest,List.append_assoc,List.append_assoc,hlit]; rfl⟩
    refine ⟨name,hname,?_⟩
    cases path with
    | nil =>
      have hlen := congrArg List.length heq
      simp [absolutePath] at hlen
    | cons a rest =>
      have hflat : absolutePath (a::rest)= '/' :: (a++rest.flatMap fun s => '/' :: s) := by
        simp [absolutePath]
      rw [hflat] at heq
      have hfirst := segment_unique (hpath a (by simp)) hv (continues_flatMap rest)
        (.inr ⟨name++tail,rfl⟩) (List.cons.inj heq).2
      cases rest with
      | nil => exact absurd hfirst.2 (by simp)
      | cons b rest =>
        have hflat₂ : (b::rest).flatMap (fun s => '/' :: s)=
            '/' :: (b++rest.flatMap fun s => '/' :: s) := by
          simp
        rw [hflat₂] at hfirst
        have hsecond := segment_unique (hpath b (by simp)) hslash (continues_flatMap rest) htail
          (List.cons.inj hfirst.2).2
        rw [hfirst.1,hsecond.1]
        exact ⟨rest,rfl⟩
  · rintro ⟨name,hname,rest,rfl⟩
    refine ⟨name,hname,?_⟩
    have hflat : absolutePath ("v1".toList::name::rest)=
        "/v1/".toList++name++rest.flatMap fun s => '/' :: s := by
      simp [absolutePath]
    rw [hflat]
    rcases continues_flatMap rest with hnil | ⟨tail,htail⟩
    · rw [hnil]
      exact .inl (List.append_nil _)
    · rw [htail]
      exact .inr ⟨tail,by simp⟩

/-- The path that is sent is whitelisted when the request comes to a route. -/
theorem whitelisted_sent_iff (service : Service) (path : List Char) :
    Whitelisted service (absolutePath (removeDotSegments (urlSegments path))) ↔
      ComesTo service (urlSegments path) := by
  have hslash : ∀ s∈removeDotSegments (urlSegments path), '/' ∉ s := by
    intro s hs
    rw [removeDotSegments_eq] at hs
    rcases List.mem_append.mp hs with hs | hs
    · exact slash_notMem_segments _ s (List.mem_of_mem_tail (mem_of_mem_kept hs))
    · split at hs
      · exact absurd hs (by simp)
      · obtain rfl := List.mem_singleton.mp hs
        simp
  rw [whitelisted_iff service hslash,removeDotSegments_eq,comesTo_iff]
  constructor
  · rintro ⟨name,hname,rest,heq⟩
    have hne := (routeName_shape service name hname).2
    refine ⟨name,hname,?_⟩
    split at heq
    · rw [List.append_nil] at heq
      exact ⟨rest,heq⟩
    · -- the empty segment at the end is no route
      cases hkept : kept (urlSegments path) with
      | nil => simp [hkept] at heq
      | cons a more =>
        rw [hkept] at heq
        cases more with
        | nil =>
          simp only [List.cons_append,List.nil_append,List.cons.injEq] at heq
          exact absurd heq.2.1.symm hne
        | cons b more =>
          simp only [List.cons_append,List.cons.injEq] at heq
          exact ⟨more,by rw [heq.1,heq.2.1]⟩
  · rintro ⟨name,hname,rest,heq⟩
    rw [heq]
    exact ⟨name,hname,_,rfl⟩

/-- A segment in front of what continues a text. -/
theorem segments_append {a : List Char} (ha : '/' ∉ a) (tail : List Char) :
    segments (a++ '/' :: tail)=a::segments tail := by
  induction a with
  | nil => rfl
  | cons c a ih =>
    have hc : ¬c = '/' := fun hc => ha (hc ▸ List.mem_cons_self)
    rw [List.cons_append,segments,if_neg hc,ih fun hmem => ha (List.mem_cons_of_mem c hmem)]

/-- The first segment of a text and what follows it. -/
theorem segments_eq_cons {text name : List Char} {more : List (List Char)}
    (h : segments text=name::more) : ∃ rest,Continues rest ∧ text=name++rest := by
  induction text generalizing name more with
  | nil =>
    obtain ⟨rfl,_⟩ := List.cons.inj h
    exact ⟨[],.inl rfl,rfl⟩
  | cons c text ih =>
    unfold segments at h
    split at h
    · rename_i hc
      obtain ⟨rfl,_⟩ := List.cons.inj h
      exact ⟨c::text,.inr ⟨text,by rw [hc]⟩,rfl⟩
    · cases hsegments : segments text with
      | nil => exact absurd hsegments (segments_ne_nil text)
      | cons s tail =>
        rw [hsegments] at h
        obtain ⟨rfl,_⟩ := List.cons.inj h
        obtain ⟨rest,hrest,rfl⟩ := ih hsegments
        exact ⟨rest,hrest,rfl⟩

/-- A matched prefix is followed by its end or by a slash. -/
def Followed (path : List Char) : Prop :=
  ∃ service,∃ name∈routeNames service,∃ rest,Continues rest ∧
    urlPath path="/v1/".toList++name++rest

/-- A path that starts with a prefix of a route, up to its query. -/
theorem urlPath_of_matches {service : Service} {path : List Char} (h : Matches service path) :
    ∃ name∈routeNames service,∃ rest,urlPath path="/v1/".toList++(name++rest) := by
  obtain ⟨name,hname,rest,rfl⟩ := h
  have hplain : ∀ c∈"/v1/".toList++name,(!endsPath c)=true := by
    have hnames : ∀ service,∀ name∈routeNames service,
        ("/v1/".toList++name).all (fun c => !endsPath c)=true := by
      intro service
      cases service <;> decide
    exact List.all_eq_true.mp (hnames service name hname)
  refine ⟨name,hname,rest.takeWhile fun c => !endsPath c,?_⟩
  rw [urlPath,List.takeWhile_append_of_pos hplain,List.append_assoc]

/-- As long as nothing climbs above the second segment, it decides alone. -/
theorem comesTo_iff_followed {service : Service} {path : List Char} (h : Matches service path)
    (hstays : climbsOut ((urlSegments path).drop 2)=false) :
    ComesTo service (urlSegments path) ↔ Followed path := by
  obtain ⟨start,hstart,tail,htail⟩ := urlPath_of_matches h
  obtain ⟨second,more,hsecond⟩ := List.exists_cons_of_ne_nil (segments_ne_nil (start++tail))
  have hpath : urlSegments path="v1".toList::second::more := by
    have hsplit : urlPath path=[]++ '/' :: ("v1".toList++ '/' :: (start++tail)) := htail
    rw [urlSegments,hsplit,segments_append (by simp),segments_append (by decide),hsecond]
    rfl
  obtain ⟨rest,hrest,htext⟩ := segments_eq_cons hsecond
  rw [hpath] at hstays
  have hzero : climbs more=0 := (climbsOut_eq_false_iff more).mp hstays
  have hkept : isName second=true → kept (urlSegments path)="v1".toList::second::kept more := by
    intro hname
    have hparent := isParent_of_isName hname
    have hbelow : climbsOut (second::more)=false := by
      rw [climbsOut_eq_false_iff]
      simp [climbs,hparent,hname,hzero]
    rw [hpath,kept,if_pos (by rw [hbelow]; decide),kept,if_pos (by rw [hname]; simpa using hstays)]
  -- the second segment starts with a name of a route, so it is no dot segment
  have hname : isName second=true := by
    have hletters : ∀ service,∀ name∈routeNames service,∃ c more,name=c::more ∧ c≠ '.' ∧
        c≠ '/' := by
      intro service
      cases service <;> simp [routeNames]
    obtain ⟨c,more',rfl,hdot,hslash⟩ := hletters service start hstart
    cases second with
    | nil =>
      rcases hrest with rfl|⟨rest,rfl⟩
      · cases htext
      · exact absurd (List.cons.inj htext).1 hslash
    | cons c' second =>
      obtain ⟨rfl,_⟩ := List.cons.inj htext
      simp [isName,hdot]
  have hwhole : urlPath path="/v1/".toList++second++rest := by
    rw [htail,htext,List.append_assoc]
  rw [comesTo_iff,hkept hname]
  constructor
  · rintro ⟨name,hroute,below,heq⟩
    simp only [List.cons.injEq,true_and] at heq
    exact ⟨service,name,hroute,rest,hrest,by rw [hwhole,heq.1]⟩
  · rintro ⟨other,name,hroute,rest',hrest',heq⟩
    have hslash : '/' ∉ second := slash_notMem_segments _ second (by
      rw [hsecond]
      exact List.mem_cons_self)
    have hsame : second++rest=name++rest' := by
      rw [hwhole,List.append_assoc,List.append_assoc] at heq
      exact List.append_cancel_left heq
    obtain ⟨rfl,_⟩ := segment_unique hslash (routeName_shape other name hroute).1 hrest hrest' hsame
    refine ⟨second,?_,kept more,rfl⟩
    have hother : Matches other path := by
      refine ⟨second,hroute,?_⟩
      have hle : urlPath path<+:path := List.takeWhile_prefix _
      exact List.IsPrefix.trans ⟨rest',heq.symm⟩ hle
    rw [h.unique hother]
    exact hroute

/-- What is forwarded is a whitelisted route of its service exactly when the
path comes to a route of the service whose prefix it starts with. As long as
nothing climbs above the second segment, this says that the prefix is followed
by its end or by a slash. -/
theorem forwarded_whitelisted_iff (upstreams : Upstreams) (admission : Admission)
    (method fullPath : String) :
    ∀ service sent,proxyRequest upstreams admission method fullPath=some (service,sent) →
      (Whitelisted service sent ↔ ∃ target,Matches target (proxyPath fullPath) ∧
        ComesTo target (urlSegments (proxyPath fullPath))) ∧
      (climbsOut ((urlSegments (proxyPath fullPath)).drop 2)=false →
        (Whitelisted service sent ↔ Followed (proxyPath fullPath))) := by
  intro service sent h
  unfold proxyRequest at h
  dsimp only at h
  split at h
  · split at h
    · rename_i target hresolved
      obtain ⟨found,hfound,hpair⟩ := Option.map_eq_some_iff.mp h
      obtain ⟨rfl,rfl⟩ := Prod.mk.inj hpair
      unfold sentPath at hfound
      split at hfound
      · obtain rfl := Option.some.inj hfound
        have hmatches := matches_resolveService hresolved
        have hsent := whitelisted_sent_iff target (proxyPath fullPath)
        refine ⟨hsent.trans ⟨fun hcomes => ⟨target,hmatches,hcomes⟩,?_⟩,fun hstays =>
          hsent.trans (comesTo_iff_followed hmatches hstays)⟩
        rintro ⟨other,hother,hcomes⟩
        rw [hmatches.unique hother]
        exact hcomes
      · exact absurd hfound nofun
    · exact absurd h nofun
  · exact absurd h nofun

/-- Two services in a deployment without notifications. -/
def sampleUpstreams : Upstreams := ⟨false,fun _ => "http://auth-service:8001".length⟩

/-- The account endpoint is forwarded to the auth service. -/
theorem forwarded_whitelisted_login :
    Whitelisted .auth "/v1/auth/me".toList :=
  ((forwarded_whitelisted_iff sampleUpstreams ⟨true,true⟩ "GET" "v1/auth/x/.././me" .auth
    "/v1/auth/me".toList (by decide)).2 (by decide)).mpr
      ⟨.auth,"auth".toList,by decide,"/x/.././me".toList,.inr ⟨_,rfl⟩,by decide⟩

/-- A path that continues a route without a slash, and one that leaves it
again, are forwarded. -/
theorem forwarded_outside_routes :
    proxyRequest sampleUpstreams ⟨true,true⟩ "GET" "v1/authx"=some (.auth,"/v1/authx".toList) ∧
      ¬Whitelisted .auth "/v1/authx".toList ∧
      proxyRequest sampleUpstreams ⟨true,true⟩ "GET" "v1/auth/../../internal"=
        some (.auth,"/internal".toList) ∧
      ¬Whitelisted .auth "/internal".toList := by
  have hoff : ∀ path : List (List Char),(∀ s∈path, '/' ∉ s) →
      (∀ name∈routeNames .auth,path.take 2≠["v1".toList,name]) →
      ¬Whitelisted .auth (absolutePath path) := by
    intro path hslash hroute hwhite
    obtain ⟨name,hname,rest,heq⟩ := (whitelisted_iff .auth hslash).mp hwhite
    exact hroute name hname (by rw [heq]; rfl)
  exact ⟨by decide,hoff ["v1".toList,"authx".toList] (by decide) (by decide),by decide,
    hoff ["internal".toList] (by decide) (by decide)⟩

end Routing

end BackendPlatform.GatewayRoutes
