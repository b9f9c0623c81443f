import BackendPlatform.AuthFlows
import BackendPlatform.SharedRedis
import Mathlib.Algebra.Group.Nat.Defs
import Mathlib.Data.List.DropRight

/-!
# The address of a client

Gateway, authentication service and user service each read the client's
address with a copy of one function: the left-most entry of
`X-Forwarded-For` behind a trusted proxy, else the peer. The gateway drops
every forwarding header it received and sends the address it computed itself.
-/

set_option autoImplicit false

namespace BackendPlatform.ClientAddresses

open SharedRedis AuthRecords AuthEffects AuthServices AuthFlows BruteForceProtectionService AuthService

section Texts

/-- The characters `str.strip` keeps. -/
def trim (p : Char → Bool) (l : List Char) : List Char := (l.dropWhile p).rdropWhile p

/-- Stripping is trimming the white space of both ends. -/
theorem strip_eq_trim (text : String) : strip text=String.ofList (trim isSpace text.toList) := rfl

/-- Trimming leaves a part of the text. -/
theorem trim_sublist (p : Char → Bool) (l : List Char) : (trim p l).Sublist l :=
  ( List.rdropWhile_prefix p (l.dropWhile p)).sublist.trans (l.dropWhile_sublist p)

/-- A trimmed list has nothing left to trim. -/
theorem trim_trim (p : Char → Bool) (l : List Char) : trim p (trim p l)=trim p l := by
  have hhead : (trim p l).dropWhile p=trim p l := by
    obtain ⟨rest,hrest⟩ := List.rdropWhile_prefix p (l.dropWhile p)
    cases hr : trim p l with
    | nil => rfl
    | cons a as =>
      -- the first character kept is the first one after the leading blanks
      have hdrop : l.dropWhile p=a::(as++rest) := by
        rw [← hrest,← List.cons_append,← hr]
        rfl
      have hkeep : p a=false := by
        have hself := l.dropWhile_idempotent p
        rw [hdrop,List.dropWhile_cons] at hself
        by_contra hp
        rw [if_pos (by simpa using hp)] at hself
        have hlen := congrArg List.length hself
        have hle := ((as++rest).dropWhile_sublist p).length_le
        simp only [List.length_cons] at hlen
        omega
      rw [List.dropWhile_cons_of_neg (by simp [hkeep])]
  calc trim p (trim p l)=(trim p l).rdropWhile p := congrArg (List.rdropWhile p) hhead
    _=trim p l := (l.dropWhile p).rdropWhile_idempotent p

/-- Stripping twice is stripping once. -/
theorem strip_strip (text : String) : strip (strip text)=strip text := by
  simp only [strip_eq_trim,String.toList_ofList,trim_trim]

/-- The text before the first comma: `split(",", maxsplit=1)[0]`. -/
def beforeComma (text : String) : String := String.ofList (text.toList.takeWhile (· ≠ ','))

/-- The left-most entry of a forwarded-for value. -/
def firstHop (xff : String) : String := strip (beforeComma xff)

/-- A text without a comma is its own first part. -/
theorem beforeComma_eq_self {text : String} (h : ',' ∉ text.toList) : beforeComma text=text := by
  have hall : ∀ c∈text.toList,(c ≠ ',' : Bool)=true := by
    intro c hc
    have hne : c ≠ ',' := by
      rintro rfl
      exact h hc
    simpa using hne
  rw [beforeComma,List.takeWhile_eq_self_iff.mpr hall,String.ofList_toList]

/-- An entry has no comma. -/
theorem firstHop_no_comma (xff : String) : ',' ∉ (firstHop xff).toList := by
  intro hmem
  rw [firstHop,strip_eq_trim,String.toList_ofList] at hmem
  have htake := (trim_sublist isSpace _).subset hmem
  rw [beforeComma,String.toList_ofList] at htake
  have hne := List.mem_takeWhile_imp htake
  simp at hne

/-- The left-most entry of an entry is the entry. -/
theorem firstHop_firstHop (xff : String) : firstHop (firstHop xff)=firstHop xff := by
  have hcomma := beforeComma_eq_self (firstHop_no_comma xff)
  calc firstHop (firstHop xff)=strip (firstHop xff) := congrArg strip hcomma
    _=firstHop xff := strip_strip _

/-- What follows a comma does not reach the left-most entry. -/
theorem firstHop_append (xff rest : String) : firstHop (xff++","++rest)=firstHop xff := by
  have htake : (xff.toList++ ',' :: rest.toList).takeWhile (· ≠ ',')=
      xff.toList.takeWhile (· ≠ ',') := by
    induction xff.toList with
    | nil => rfl
    | cons c cs ih =>
      rw [List.cons_append,List.takeWhile_cons,List.takeWhile_cons,ih]
  have hlist : (xff++","++rest).toList=xff.toList++ ',' :: rest.toList := by simp
  rw [firstHop,firstHop,beforeComma,beforeComma,hlist,htake]

end Texts

section Requests

/-- What `ipaddress` offers; `none` is a `ValueError`, `ipNetwork` parses with
`strict=False`. -/
structure AddressLibrary where
  /-- Parsed addresses. -/
  Address : Type
  /-- Parsed networks. -/
  Network : Type
  /-- `ip_address`. -/
  ipAddress : String → Option Address
  /-- `ip_network`. -/
  ipNetwork : String → Option Network
  /-- Equality of addresses. -/
  same : Address → Address → Bool
  /-- `in`. -/
  contains : Network → Address → Bool

/-- One decimal part of an IPv4 address. -/
def octet (digits : List Char) : Option ℕ :=
  if digits≠[] ∧ digits.length≤3 ∧ digits.all Char.isDigit=true ∧
      (digits.head?=some '0' → digits.length=1) ∧ Nat.ofDigitChars 10 digits 0<256 then
    some (Nat.ofDigitChars 10 digits 0)
  else none

/-- `ip_address` of an IPv4 text. -/
def ipv4Address (text : String) : Option ℕ :=
  match (text.toList.splitOn '.').mapM octet with
  | some [a,b,c,e] => some (((a*256+b)*256+c)*256+e)
  | _ => none

/-- `ip_network` of an IPv4 text with a prefix length. -/
def ipv4Network (text : String) : Option (ℕ×ℕ) :=
  match text.toList.splitOn '/' with
  | [address,length] =>
    let bits := Nat.ofDigitChars 10 length 0
    if length≠[] ∧ length.all Char.isDigit=true ∧ bits≤32 then
      (ipv4Address (String.ofList address)).map fun n => (n,bits)
    else none
  | _ => none

/-- The part of `ipaddress` for IPv4 texts. -/
def ipv4Library : AddressLibrary where
  Address := ℕ
  Network := ℕ×ℕ
  ipAddress := ipv4Address
  ipNetwork := ipv4Network
  same := fun a b => a=b
  contains := fun network a => a/2^(32-network.2)=network.1/2^(32-network.2)

/-- The address of a connection's peer, as a text. -/
structure PeerAddress where
  /-- The text. -/
  host : String
  /-- No blanks around it. -/
  stripped : strip host=host
  /-- No list of addresses. -/
  single : ',' ∉ host.toList

/-- An address is its own left-most entry. -/
theorem PeerAddress.firstHop (peer : PeerAddress) : firstHop peer.host=peer.host := by
  rw [ClientAddresses.firstHop,beforeComma_eq_self peer.single,peer.stripped]

/-- Headers in order. -/
abbrev Headers := List (String×String)

/-- Lower case of a header name. -/
def lowerName (name : String) : String := String.ofList (name.toList.map Char.toLower)

/-- A request as a service sees it: header names in lower case, its peer. -/
structure Request where
  /-- The headers. -/
  headers : Headers
  /-- The peer, when there is one. -/
  client : Option PeerAddress

/-- `Headers.get`: the first value under a name. -/
def getHeader (headers : Headers) (name : String) : Option String :=
  (headers.find? fun h => h.1=lowerName name).map (·.2)

/-- `request.client.host` when it is not empty. -/
def clientHost (client : Option PeerAddress) : Option String :=
  match client with
  | some peer => if peer.host="" then none else some peer.host
  | none => none

/-- One entry of the list of trusted proxies. -/
def isTrustedEntry (lib : AddressLibrary) (host trusted : String) : Bool :=
  let candidate := strip trusted
  if candidate="" then false
  else if candidate=host then true
  else match lib.ipAddress host with
    | none => false
    | some clientIp =>
      if candidate.toList.contains '/' then
        match lib.ipNetwork candidate with
        | some network => lib.contains network clientIp
        | none => false
      else match lib.ipAddress candidate with
        | some address => lib.same clientIp address
        | none => false

example : isTrustedEntry ipv4Library "172.20.0.7" "172.16.0.0/12"=true := by
  decide

/-- `_is_trusted_proxy`. -/
def isTrustedProxy (lib : AddressLibrary) (clientHost : Option String)
    (trustedProxyIps : Option (List String)) : Bool :=
  match clientHost with
  | none => false
  | some host => if host="" then false
    else (trustedProxyIps.getD []).any (isTrustedEntry lib host)

/-- The peer, or `unknown`. -/
def peerOrUnknown (client : Option PeerAddress) : String := (clientHost client).getD "unknown"

/-- `get_client_ip`, the same text in gateway, authentication service and user
service. -/
def getClientIp (lib : AddressLibrary) (request : Request)
    (trustedProxyIps : Option (List String)) : String :=
  match getHeader request.headers "x-forwarded-for" with
  | none => peerOrUnknown request.client
  | some xff =>
    if xff≠"" ∧ isTrustedProxy lib (clientHost request.client) trustedProxyIps=true then
      if firstHop xff≠"" then firstHop xff else peerOrUnknown request.client
    else peerOrUnknown request.client

variable {lib lib' : AddressLibrary} {request : Request} {trusted trusted' : Option (List String)}

/-- The placeholder is its own first hop. -/
theorem firstHop_unknown : firstHop "unknown"="unknown" := by
  decide

/-- The name of a peer is its own first hop. -/
theorem peerOrUnknown_firstHop (client : Option PeerAddress) :
    firstHop (peerOrUnknown client)=peerOrUnknown client := by
  unfold peerOrUnknown clientHost
  cases client with
  | none => exact firstHop_unknown
  | some peer =>
    dsimp only
    split
    · exact firstHop_unknown
    · exact peer.firstHop

/-- The name of a peer is not empty. -/
theorem peerOrUnknown_ne_empty (client : Option PeerAddress) : peerOrUnknown client≠"" := by
  unfold peerOrUnknown clientHost
  cases client with
  | none => decide
  | some peer =>
    dsimp only
    split
    · decide
    · assumption

/-- A client address is one entry of a list of addresses. -/
theorem getClientIp_firstHop : firstHop (getClientIp lib request trusted)=
    getClientIp lib request trusted := by
  unfold getClientIp
  split
  · exact peerOrUnknown_firstHop _
  · split
    · split
      · exact firstHop_firstHop _
      · exact peerOrUnknown_firstHop _
    · exact peerOrUnknown_firstHop _

/-- A client address is never empty. -/
theorem getClientIp_ne_empty : getClientIp lib request trusted≠"" := by
  unfold getClientIp
  split
  · exact peerOrUnknown_ne_empty _
  · split
    · split
      · assumption
      · exact peerOrUnknown_ne_empty _
    · exact peerOrUnknown_ne_empty _

/-- Behind a trusted proxy the left-most entry is the client. -/
theorem getClientIp_trusted {xff : String}
    (hxff : getHeader request.headers "x-forwarded-for"=some xff) (hne : xff≠"")
    (htrust : isTrustedProxy lib (clientHost request.client) trusted=true) :
    getClientIp lib request trusted=
      if firstHop xff≠"" then firstHop xff else peerOrUnknown request.client := by
  unfold getClientIp
  rw [hxff]
  exact if_pos ⟨hne,htrust⟩

end Requests

section Proxies

/-- `X-Forwarded-For` after a proxy has appended the address of its peer to
what that peer sent. -/
def appendHop (claimed : Option String) (peer : PeerAddress) : String :=
  match claimed with
  | none => peer.host
  | some value => value++", "++peer.host

/-- What a client may send without choosing its address: nothing, its own
address first, or a blank first entry when the proxy is the peer itself. -/
def Faithful (claimed : Option String) (peer proxy : PeerAddress) : Prop :=
  match claimed with
  | none => True
  | some value => firstHop value=peer.host ∨ firstHop value="" ∧ proxy.host=peer.host

/-- A request that came through one trusted proxy. -/
structure Proxied (lib : AddressLibrary) (trusted : Option (List String))
    (claimed : Option String) (peer proxy : PeerAddress) (request : Request) : Prop where
  /-- The proxy has connected. -/
  client : request.client=some proxy
  /-- It is trusted. -/
  trusted : isTrustedProxy lib (clientHost (some proxy)) trusted=true
  /-- It has appended its peer. -/
  header : getHeader request.headers "x-forwarded-for"=some (appendHop claimed peer)
  /-- The peer has an address. -/
  address : peer.host≠""

variable {lib : AddressLibrary} {trusted : Option (List String)} {claimed : Option String}
  {peer proxy : PeerAddress} {request : Request}

/-- A further hop leaves the first one. -/
theorem firstHop_appendHop (value : String) :
    firstHop (appendHop (some value) peer)=firstHop value := by
  have hcomma : appendHop (some value) peer=value++","++(" "++peer.host) := by
    apply String.toList_injective
    simp [appendHop]
  rw [hcomma]
  exact firstHop_append value _

/-- With a further hop the header is not empty. -/
theorem appendHop_ne_empty (hne : peer.host≠"") : appendHop claimed peer≠"" := by
  intro hempty
  cases claimed with
  | none => exact hne hempty
  | some value =>
    have hlist := congrArg (fun t : String => t.toList) hempty
    simp [appendHop] at hlist

/-- A trusted proxy has a host. -/
theorem peerOrUnknown_trusted (htrust : isTrustedProxy lib (clientHost (some proxy)) trusted=true) :
    peerOrUnknown (some proxy)=proxy.host ∧ proxy.host≠"" := by
  unfold clientHost at htrust
  by_cases hempty : proxy.host=""
  · simp [hempty,isTrustedProxy] at htrust
  · simp [peerOrUnknown,clientHost,hempty]

/-- The address found behind a proxy. -/
theorem Proxied.getClientIp_eq (h : Proxied lib trusted claimed peer proxy request) :
    getClientIp lib request trusted=
      if firstHop (appendHop claimed peer)≠"" then firstHop (appendHop claimed peer)
      else proxy.host := by
  have htrust : isTrustedProxy lib (clientHost request.client) trusted=true := by
    rw [h.client]
    exact h.trusted
  have hpeer : peerOrUnknown request.client=proxy.host := by
    rw [h.client]
    exact (peerOrUnknown_trusted h.trusted).1
  rw [getClientIp_trusted h.header (appendHop_ne_empty h.address) htrust,hpeer]

/-- The proxy's entry counts exactly when the client claimed nothing else. -/
theorem Proxied.getClientIp_peer_iff (h : Proxied lib trusted claimed peer proxy request) :
    getClientIp lib request trusted=peer.host ↔ Faithful claimed peer proxy := by
  have heq := h.getClientIp_eq
  have hne := h.address
  cases claimed with
  | none =>
    have hfirst : firstHop (appendHop none peer)=peer.host := peer.firstHop
    rw [hfirst,if_pos hne] at heq
    exact ⟨fun _ => trivial,fun _ => heq⟩
  | some value =>
    rw [firstHop_appendHop] at heq
    rw [heq]
    show _ ↔ firstHop value=peer.host ∨ firstHop value="" ∧ proxy.host=peer.host
    by_cases hblank : firstHop value=""
    · rw [if_neg (by simpa using hblank)]
      constructor
      · exact fun hproxy => .inr ⟨hblank,hproxy⟩
      · rintro (hfirst | ⟨-,hproxy⟩)
        · exact absurd (hfirst.symm.trans hblank) hne
        · exact hproxy
    · rw [if_pos hblank]
      constructor
      · exact .inl
      · rintro (hfirst | ⟨hempty,-⟩)
        · exact hfirst
        · exact absurd hempty hblank

end Proxies

section Forwarding

/-- `HOP_BY_HOP_HEADERS`. -/
def hopByHopHeaders : List String :=
  ["connection","keep-alive","proxy-authenticate","proxy-authorization","te","trailers",
    "transfer-encoding","upgrade"]

/-- `FORWARDED_HEADERS`. -/
def forwardedHeaders : List String := ["forwarded","x-forwarded-for","x-real-ip"]

/-- `dict(request.headers)`: every name once, with its first value. -/
def dictOf : Headers → Headers
  | [] => []
  | h::rest => h::(dictOf rest).filter fun other => other.1≠h.1

/-- `_sanitize_request_headers`. -/
def sanitizeRequestHeaders (headers : Headers) : Headers :=
  headers.filter fun h => !(hopByHopHeaders.contains (lowerName h.1) ||
    forwardedHeaders.contains (lowerName h.1) || lowerName h.1="host" ||
    lowerName h.1="content-length")

/-- Assignment to a key of a dictionary. -/
def setItem (headers : Headers) (name value : String) : Headers :=
  if headers.any (·.1=name) then headers.map fun h => if h.1=name then (name,value) else h
  else headers++[(name,value)]

/-- The headers `RoutingService.forward` hands to the client of a service. -/
def safeHeaders (headers : Headers) (clientIp : Option String) : Headers :=
  match clientIp with
  | some ip =>
    if ip="" then sanitizeRequestHeaders headers
    else setItem (sanitizeRequestHeaders headers) "X-Forwarded-For" ip
  | none => sanitizeRequestHeaders headers

/-- The `httpx` client of a service. -/
structure HttpClient where
  /-- Headers it sends unless the request replaces them. -/
  defaults : Headers
  /-- It never forwards an address on its own. -/
  silent : ∀ h∈defaults,lowerName h.1≠"x-forwarded-for"

/-- The headers of the request `httpx` builds. -/
def preparedHeaders (http : HttpClient) (host contentLength : String) (headers : Headers) :
    Headers :=
  [("Host",host),("Content-Length",contentLength)]++
    (http.defaults.filter fun h => !headers.any fun other => lowerName other.1=lowerName h.1)++
    headers

/-- A character of a header value on the wire, apart from blanks. -/
def isFieldChar (c : Char) : Bool := c.toNat<128 && c.toNat∉[0,9,10,11,12,13,32]

/-- A header that can be sent: ASCII, no control characters that end a line,
no blanks around the value. -/
def isSendable (h : String×String) : Bool :=
  h.1.toList.all isFieldChar && h.2.toList.all (fun c => isFieldChar c || c = ' ' || c = '\t') &&
    h.2.toList.head?.all isFieldChar && h.2.toList.getLast?.all isFieldChar

/-- The request a service receives from the gateway; nothing is sent when a
header cannot be. -/
def forwardedRequest (http : HttpClient) (gateway : PeerAddress) (host contentLength : String)
    (headers : Headers) (clientIp : Option String) : Option Request :=
  let sent := preparedHeaders http host contentLength (safeHeaders (dictOf headers) clientIp)
  if sent.all isSendable then
    some ⟨sent.map fun h => (lowerName h.1,h.2),some gateway⟩
  else none

/-- An incoming request: the server lowers the names of the headers. -/
def incomingRequest (headers : Headers) (client : Option PeerAddress) : Request :=
  ⟨headers.map fun h => (lowerName h.1,h.2),client⟩

/-- No sanitised header forwards an address. -/
theorem lowerName_sanitized {headers : Headers} {h : String×String}
    (hmem : h∈sanitizeRequestHeaders headers) : lowerName h.1≠"x-forwarded-for" := by
  have hkept := (List.mem_filter.mp hmem).2
  intro hname
  rw [hname] at hkept
  exact absurd hkept (by decide)

/-- The gateway's value is the only forwarded address. -/
theorem getHeader_prepared (http : HttpClient) (host contentLength : String) (headers : Headers)
    {ip : String} (hne : ip≠"") :
    getHeader ((preparedHeaders http host contentLength (safeHeaders headers (some ip))).map
      fun h => (lowerName h.1,h.2)) "x-forwarded-for"=some ip := by
  have hsafe : safeHeaders headers (some ip)=
      sanitizeRequestHeaders headers++[("X-Forwarded-For",ip)] := by
    have hfresh : ((sanitizeRequestHeaders headers).any (·.1="X-Forwarded-For"))=false := by
      rw [List.any_eq_false]
      intro h hmem hname
      have hname : h.1="X-Forwarded-For" := by simpa using hname
      have hlower := lowerName_sanitized hmem
      rw [hname] at hlower
      exact hlower (by decide)
    simp only [safeHeaders,if_neg hne,setItem,hfresh]
    rfl
  have hother : ∀ h∈[("Host",host),("Content-Length",contentLength)]++
      (http.defaults.filter fun h => !(safeHeaders headers (some ip)).any
        fun other => lowerName other.1=lowerName h.1)++sanitizeRequestHeaders headers,
      lowerName h.1≠lowerName "x-forwarded-for" := by
    have hlower : lowerName "x-forwarded-for"="x-forwarded-for" := by decide
    rw [hlower]
    intro h hmem
    rcases List.mem_append.mp hmem with hmem | hmem
    · rcases List.mem_append.mp hmem with hmem | hmem
      · rcases List.mem_cons.mp hmem with rfl | hmem
        · show lowerName "Host"≠_
          decide
        · obtain rfl := List.mem_singleton.mp hmem
          show lowerName "Content-Length"≠_
          decide
      · exact http.silent h (List.mem_filter.mp hmem).1
    · exact lowerName_sanitized hmem
  have hnone : (([("Host",host),("Content-Length",contentLength)]++
      (http.defaults.filter fun h => !(safeHeaders headers (some ip)).any
        fun other => lowerName other.1=lowerName h.1)++sanitizeRequestHeaders headers).map
      fun h => (lowerName h.1,h.2)).find? (fun h => h.1=lowerName "x-forwarded-for")=none := by
    rw [List.find?_eq_none]
    intro a ha
    obtain ⟨h,hmem,rfl⟩ := List.mem_map.mp ha
    simpa using hother h hmem
  have hlast : lowerName "X-Forwarded-For"=lowerName "x-forwarded-for" := by decide
  unfold getHeader preparedHeaders
  rw [hsafe] at hnone ⊢
  rw [← List.append_assoc,List.map_append,List.find?_append,hnone]
  simp [hlast]

variable (lib lib' : AddressLibrary) (trusted trusted' : Option (List String)) (http : HttpClient)
  (gateway : PeerAddress) (host contentLength : String)

/-- What the gateway forwards for an incoming request. -/
def forwarded (headers : Headers) (client : Option PeerAddress) : Option Request :=
  forwardedRequest http gateway host contentLength (incomingRequest headers client).headers
    (some (getClientIp lib (incomingRequest headers client) trusted))

/-- A service that trusts the gateway finds the address the gateway found. -/
theorem getClientIp_forwarded
    (htrust : isTrustedProxy lib' (clientHost (some gateway)) trusted'=true) {headers : Headers}
    {client : Option PeerAddress} {received : Request}
    (hreceived : forwarded lib trusted http gateway host contentLength headers client=
      some received) :
    getClientIp lib' received trusted'=
      getClientIp lib (incomingRequest headers client) trusted := by
  have hne : getClientIp lib (incomingRequest headers client) trusted≠"" := getClientIp_ne_empty
  have hhop : firstHop (getClientIp lib (incomingRequest headers client) trusted)=
      getClientIp lib (incomingRequest headers client) trusted := getClientIp_firstHop
  unfold forwarded at hreceived
  generalize getClientIp lib (incomingRequest headers client) trusted=ip at hreceived hne hhop ⊢
  unfold forwardedRequest at hreceived
  dsimp only at hreceived
  split at hreceived
  · obtain rfl := Option.some.inj hreceived
    rw [getClientIp_trusted (getHeader_prepared http host contentLength _ hne) hne htrust,hhop,
      if_pos hne]
  · exact absurd hreceived nofun

/-- Every service finds the address the gateway found, whatever the client
put into its headers. -/
theorem services_see_same_client (headers : Headers) (client : Option PeerAddress)
    (htrust : isTrustedProxy lib' (clientHost (some gateway)) trusted'=true) :
    ∀ received,forwarded lib trusted http gateway host contentLength headers client=some received →
      getClientIp lib' received trusted'=
          getClientIp lib (incomingRequest headers client) trusted ∧
        ∀ headers₂ client₂ received₂,
          forwarded lib trusted http gateway host contentLength headers₂ client₂=some received₂ →
          getClientIp lib (incomingRequest headers₂ client₂) trusted=
            getClientIp lib (incomingRequest headers client) trusted →
          getClientIp lib' received₂ trusted'=getClientIp lib' received trusted' := by
  intro received hreceived
  have hfirst := getClientIp_forwarded lib lib' trusted trusted' http gateway host contentLength
    htrust hreceived
  refine ⟨hfirst,?_⟩
  intro headers₂ client₂ received₂ hreceived₂ hsame
  have hsecond := getClientIp_forwarded lib lib' trusted trusted' http gateway host contentLength
    htrust hreceived₂
  rw [hsecond,hfirst,hsame]

end Forwarding

section Samples

/-- A load balancer. -/
def sampleProxy : PeerAddress := ⟨"10.0.0.10",by decide,by decide⟩

/-- The gateway. -/
def sampleGateway : PeerAddress := ⟨"172.20.0.7",by decide,by decide⟩

/-- The client the gateway has for a service. -/
def sampleHttp : HttpClient where
  defaults := [("Accept","*/*"),("Accept-Encoding","gzip, deflate"),("Connection","keep-alive"),
    ("User-Agent","python-httpx/0.28.1")]
  silent := by decide

/-- A client. -/
def sampleClient : PeerAddress := ⟨"198.51.100.7",by decide,by decide⟩

/-- A request that forges every forwarding header. -/
def forgedHeaders : Headers :=
  [("X-FORWARDED-FOR","203.0.113.10, 198.51.100.7"),("Forwarded","for=192.0.2.1"),
    ("X-Real-IP","192.0.2.2"),("Authorization","Bearer token")]

/-- Forging headers reach the gateway through its load balancer: the service
still sees the address that the gateway sees. -/
theorem services_see_same_client_forged :
    ∃ received,forwarded ipv4Library (some ["10.0.0.10"]) sampleHttp sampleGateway
        "auth-service:8001" "0" forgedHeaders (some sampleProxy)=some received ∧
      getClientIp ipv4Library received (some ["172.16.0.0/12"])="203.0.113.10" := by
  have htrust : isTrustedProxy ipv4Library (clientHost (some sampleGateway))
      (some ["172.16.0.0/12"])=true := by
    decide
  have hsent : (forwarded ipv4Library (some ["10.0.0.10"]) sampleHttp sampleGateway
      "auth-service:8001" "0" forgedHeaders (some sampleProxy)).isSome=true := by
    decide
  have hip : getClientIp ipv4Library (incomingRequest forgedHeaders (some sampleProxy))
      (some ["10.0.0.10"])="203.0.113.10" := by
    decide
  obtain ⟨received,hreceived⟩ := Option.isSome_iff_exists.mp hsent
  have hsame := services_see_same_client ipv4Library ipv4Library (some ["10.0.0.10"])
    (some ["172.16.0.0/12"]) sampleHttp sampleGateway "auth-service:8001" "0" forgedHeaders
    (some sampleProxy) htrust received hreceived
  exact ⟨received,hreceived,hsame.1.trans hip⟩

end Samples

section Abuse

/-- What the platform keys by the address of a client. -/
structure AddressKeys where
  /-- The gateway's bucket: scope, digest of the address, minute. -/
  bucket : String×Hmac String×ℕ
  /-- The counter of failures. -/
  failures : RedisKey
  /-- The lock after failures. -/
  lock : RedisKey
  /-- The fingerprint in a login challenge. -/
  fingerprint : Hmac String

/-- The keys of a request: the gateway's from the address it computes, the
authentication service's from the address it computes for the subject of the
request, an email address or a challenge. -/
def addressKeys (d : Deployment) (pepper scope : String) (minute : ℕ) (bruteForce : Scope)
    (subject gatewayIp authIp : String) : AddressKeys where
  bucket := (scope,stableHmacDigest gatewayIp pepper,minute)
  failures := failKey d bruteForce (subject++":"++orUnknown (some authIp))
  lock := lockKey d bruteForce (subject++":"++orUnknown (some authIp))
  fingerprint := contextFingerprint d (some authIp)

/-- Behind a trusted proxy the gateway takes the left-most entry, or the proxy
when that entry is blank. It is the address the proxy appended exactly when
the client claimed no other one, and requests of one peer that do so share
every key. -/
theorem client_address_behind_proxy (lib : AddressLibrary) (trusted : Option (List String))
    (claimed : Option String) (peer proxy : PeerAddress) (headers : Headers)
    (h : Proxied lib trusted claimed peer proxy (incomingRequest headers (some proxy))) :
    getClientIp lib (incomingRequest headers (some proxy)) trusted=
        (if firstHop (appendHop claimed peer)≠"" then firstHop (appendHop claimed peer)
          else proxy.host) ∧
      (getClientIp lib (incomingRequest headers (some proxy)) trusted=peer.host ↔
        Faithful claimed peer proxy) ∧
      ∀ claimed₂ headers₂,
        Proxied lib trusted claimed₂ peer proxy (incomingRequest headers₂ (some proxy)) →
        Faithful claimed peer proxy → Faithful claimed₂ peer proxy →
        ∀ (lib' : AddressLibrary) (trusted' : Option (List String)) (http : HttpClient)
          (gateway : PeerAddress) (host contentLength contentLength₂ : String)
          (received received₂ : Request),
          isTrustedProxy lib' (clientHost (some gateway)) trusted'=true →
          forwarded lib trusted http gateway host contentLength headers (some proxy)=some received →
          forwarded lib trusted http gateway host contentLength₂ headers₂ (some proxy)=
            some received₂ →
          ∀ (d : Deployment) (pepper scope : String) (minute : ℕ) (bruteForce : Scope)
            (subject : String),
            addressKeys d pepper scope minute bruteForce subject
                (getClientIp lib (incomingRequest headers (some proxy)) trusted)
                (getClientIp lib' received trusted')=
              addressKeys d pepper scope minute bruteForce subject
                (getClientIp lib (incomingRequest headers₂ (some proxy)) trusted)
                (getClientIp lib' received₂ trusted') := by
  refine ⟨h.getClientIp_eq,h.getClientIp_peer_iff,?_⟩
  intro claimed₂ headers₂ h₂ hfaithful hfaithful₂ lib' trusted' http gateway host length length₂
    received received₂ htrust hreceived hreceived₂ d pepper scope minute bruteForce subject
  have hip := h.getClientIp_peer_iff.mpr hfaithful
  have hip₂ := h₂.getClientIp_peer_iff.mpr hfaithful₂
  have hauth := getClientIp_forwarded lib lib' trusted trusted' http gateway host length htrust
    hreceived
  have hauth₂ := getClientIp_forwarded lib lib' trusted trusted' http gateway host length₂ htrust
    hreceived₂
  rw [hauth,hauth₂,hip,hip₂]

/-- What the sample proxy sends on for a client that claims an address. -/
def viaProxy (claimed : Option String) : Headers :=
  [("X-Forwarded-For",appendHop claimed sampleClient)]

/-- The client sends its request through the sample proxy. -/
theorem sampleProxied (claimed : Option String) :
    Proxied ipv4Library (some ["10.0.0.10"]) claimed sampleClient sampleProxy
      (incomingRequest (viaProxy claimed) (some sampleProxy)) where
  client := rfl
  trusted := by decide
  header := by
    have hname : lowerName "X-Forwarded-For"=lowerName "x-forwarded-for" := by decide
    simp [getHeader,incomingRequest,hname,viaProxy]
  address := by decide

/-- A client that claims its own address first gains nothing by the rest of
its header; one that claims another address does. -/
theorem client_address_behind_proxy_own :
    getClientIp ipv4Library (incomingRequest (viaProxy (some "203.0.113.50"))
        (some sampleProxy)) (some ["10.0.0.10"])≠sampleClient.host ∧
      ∃ received received₂,
        forwarded ipv4Library (some ["10.0.0.10"]) sampleHttp sampleGateway "auth-service:8001"
            "0" (viaProxy none) (some sampleProxy)=some received ∧
          forwarded ipv4Library (some ["10.0.0.10"]) sampleHttp sampleGateway "auth-service:8001"
            "0" (viaProxy (some "198.51.100.7, 203.0.113.50")) (some sampleProxy)=some received₂ ∧
          addressKeys sampleDeployment "pepper" "public_auth" 0 .login "a@b"
              (getClientIp ipv4Library (incomingRequest (viaProxy none) (some sampleProxy))
                (some ["10.0.0.10"]))
              (getClientIp ipv4Library received (some ["172.16.0.0/12"]))=
            addressKeys sampleDeployment "pepper" "public_auth" 0 .login "a@b"
              (getClientIp ipv4Library
                (incomingRequest (viaProxy (some "198.51.100.7, 203.0.113.50")) (some sampleProxy))
                (some ["10.0.0.10"]))
              (getClientIp ipv4Library received₂ (some ["172.16.0.0/12"])) := by
  have hforged := client_address_behind_proxy ipv4Library (some ["10.0.0.10"])
    (some "203.0.113.50") sampleClient sampleProxy (viaProxy (some "203.0.113.50"))
    (sampleProxied (some "203.0.113.50"))
  have hplain := client_address_behind_proxy ipv4Library (some ["10.0.0.10"]) none sampleClient
    sampleProxy (viaProxy none) (sampleProxied none)
  have hother : ¬Faithful (some "203.0.113.50") sampleClient sampleProxy := by
    unfold Faithful
    decide
  have hown : Faithful (some "198.51.100.7, 203.0.113.50") sampleClient sampleProxy := by
    unfold Faithful
    decide
  have hsent : (forwarded ipv4Library (some ["10.0.0.10"]) sampleHttp sampleGateway
      "auth-service:8001" "0" (viaProxy none) (some sampleProxy)).isSome=true := by
    decide
  have hsent₂ : (forwarded ipv4Library (some ["10.0.0.10"]) sampleHttp sampleGateway
      "auth-service:8001" "0" (viaProxy (some "198.51.100.7, 203.0.113.50"))
      (some sampleProxy)).isSome=true := by
    decide
  obtain ⟨received,hreceived⟩ := Option.isSome_iff_exists.mp hsent
  obtain ⟨received₂,hreceived₂⟩ := Option.isSome_iff_exists.mp hsent₂
  refine ⟨fun h => hother (hforged.2.1.mp h),received,received₂,hreceived,hreceived₂,?_⟩
  exact hplain.2.2 _ _ (sampleProxied _) trivial hown ipv4Library (some ["172.16.0.0/12"])
    sampleHttp sampleGateway _ _ _ received received₂ (by decide) hreceived hreceived₂ _ _ _ _ _ _

/-- A client that claims an address is taken at its word. -/
theorem claimed_address_is_believed :
    Proxied ipv4Library (some ["10.0.0.10"]) (some "203.0.113.50") sampleClient sampleProxy
        (incomingRequest (viaProxy (some "203.0.113.50")) (some sampleProxy)) ∧
      getClientIp ipv4Library
          (incomingRequest (viaProxy (some "203.0.113.50")) (some sampleProxy))
          (some ["10.0.0.10"])="203.0.113.50" ∧
      sampleClient.host="198.51.100.7" :=
  ⟨sampleProxied (some "203.0.113.50"),by decide,rfl⟩

end Abuse

end BackendPlatform.ClientAddresses
