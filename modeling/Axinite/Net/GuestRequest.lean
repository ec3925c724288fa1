import Axinite.Foundation.Replacing
import Axinite.Net.UrlChecks
import Axinite.Tools.HttpTool

/-!
# HTTP requests of guests

WASM guests ask the host to send HTTP requests for them.  The host checks the URL against the
allowlist of the guest, injects credentials that are registered for the host of the URL, and
hands the request to a client, which may follow redirects by requests of its own.

Headers and URLs are tracked with the credentials that were injected into them.  Which headers the
client keeps when it follows a redirect is a parameter.

Main results:

- Theorem `checkHttpAllowed_congr`: the check reads the scheme, the host and the path of a URL.
- Theorem `previous_ne_nil_of_mem_hops`: all requests but the first one follow a redirect.
- Theorem `permitted_send_iff`: when the request for a redirect is permitted.
- Theorem `toolSends_public`: WASM tools send one request, to a host that has no private address.
-/

namespace Axinite.Net.Guest

open Foundation List
open Foundation.Fallible
open Tools

/-! ## URLs -/

/-- The operations on URLs, the text of a host, and the case mappings.  A URL that is printed
parses to itself, and a query parameter changes neither the host nor the path. -/
structure UrlCrate (Url : Type) where
  parse : String → Except String Url
  asStr : Url → String
  view : Url → Net.Url
  path : Url → List Char
  hostText : HostStr → List Char
  appendPair : Url → String × String → Url
  join : Url → (location : String) → Option Url
  inheritsQuery : (location : String) → Bool
  toLowercase : List Char → List Char
  toUppercase : List Char → List Char
  debug : Allowlist.AllowlistResult → String
  parse_asStr : ∀ url, parse (asStr url) = .ok url
  view_appendPair : ∀ url pair, view (appendPair url pair) = view url
  path_appendPair : ∀ url pair, path (appendPair url pair) = path url

variable {Url : Type} (crate : UrlCrate Url)

namespace UrlCrate

/-- The parts of a URL that the allowlist reads. -/
def parts (url : Url) : Allowlist.Url where
  scheme := (crate.view url).scheme.toList
  username := (crate.view url).username.toList
  password := (crate.view url).password.map String.toList
  hostStr := (crate.view url).hostStr.map crate.hostText
  path := crate.path url

def platform : Allowlist.Platform where
  parse text := (crate.parse (String.ofList text)).map crate.parts
  toLowercase := crate.toLowercase
  toUppercase := crate.toUppercase

/-- The parser with a name service. -/
def network (resolve : List Char → Option (List IpAddr)) : Network where
  parse text := (crate.parse text).map crate.view
  resolve := resolve

end UrlCrate

/-- Extract the host from the text of a URL. -/
def extractHostFromUrl (text : String) : Option String :=
  match crate.parse text with
  | .error _ => none
  | .ok url =>
    let parsed := crate.view url
    if parsed.scheme = "http" ∨ parsed.scheme = "https" then
      parsed.hostStr.map fun host =>
        String.ofList (crate.toLowercase (Allowlist.stripBrackets (crate.hostText host)))
    else none

/-! ## The state of the host -/

structure HttpCapability where
  allowlist : List Allowlist.EndpointPattern

/-- What the host keeps for a guest, as far as HTTP is concerned. -/
structure HostState where
  http : Option HttpCapability
  httpRequestCount : Nat

namespace HostState

/-- The allowlist has a pattern for the URL and the method. -/
def checkHttpAllowed (state : HostState) (url method : String) : Except String Unit := do
  let capability ← okOr state.http "HTTP capability not granted"
  let validator : Allowlist.AllowlistValidator := ⟨capability.allowlist, true⟩
  let result := validator.validate crate.platform url.toList method.toList
  ensure (result = .allowed) ("HTTP request not allowed: " ++ crate.debug result)

def maxRequestsPerExecution : Nat := 50

/-- Count a request. -/
def recordHttpRequest (state : HostState) : HostState × Except String Unit :=
  let next := { state with httpRequestCount := state.httpRequestCount + 1 }
  (next, do
    let _ ← okOr state.http "HTTP capability not granted"
    ensure (next.httpRequestCount ≤ maxRequestsPerExecution)
      "Too many HTTP requests in single execution (max 50)")

end HostState

section Check

variable {crate} {state : HostState} {text text' method : String} {url url' : Url}

/-- The check depends on the URL only through its parts. -/
theorem checkHttpAllowed_congr (hparse : crate.parse text = .ok url)
    (hparse' : crate.parse text' = .ok url') (hview : crate.view url' = crate.view url)
    (hpath : crate.path url' = crate.path url) :
    state.checkHttpAllowed crate text' method = state.checkHttpAllowed crate text method := by
  have hparts : crate.parts url' = crate.parts url := by
    simp [UrlCrate.parts, hview, hpath]
  have hplatform : crate.platform.parse text'.toList = crate.platform.parse text.toList := by
    simp [UrlCrate.platform, hparse, hparse', Except.map, hparts]
  have hvalidate : ∀ validator : Allowlist.AllowlistValidator,
      validator.validate crate.platform text'.toList method.toList =
        validator.validate crate.platform text.toList method.toList := by
    simp [Allowlist.AllowlistValidator.validate, Allowlist.parseUrl, hplatform]
  simp [HostState.checkHttpAllowed, hvalidate]

theorem exists_parse_of_checkHttpAllowed (h : state.checkHttpAllowed crate text method = .ok ()) :
    ∃ url, crate.parse text = .ok url := by
  simp only [HostState.checkHttpAllowed, bind_eq_ok_iff, ensure_eq_ok_iff] at h
  obtain ⟨capability, -, hallowed⟩ := h
  obtain ⟨parsed, hparsed, -⟩ := Allowlist.validate_eq_allowed_iff.1 hallowed
  obtain ⟨parts, -, -, hparse, -⟩ := Allowlist.parseUrl_eq_ok_iff.1 hparsed
  obtain ⟨url, hurl, -⟩ := map_eq_ok_iff.1 hparse
  exact ⟨url, by rwa [String.ofList_toList] at hurl⟩

theorem extractHostFromUrl_congr (hparse : crate.parse text = .ok url)
    (hparse' : crate.parse text' = .ok url') (hview : crate.view url' = crate.view url) :
    extractHostFromUrl crate text' = extractHostFromUrl crate text := by
  simp [extractHostFromUrl, hparse, hparse', hview]

end Check

/-! ## Credentials -/

/-- A credential with the hosts it is for, and what it adds to a request. -/
structure ResolvedHostCredential where
  hostPatterns : List String
  headers : List (String × String)
  queryParams : List (String × String)
  deriving DecidableEq

/-- One of the patterns of the credential is for the host. -/
def ResolvedHostCredential.isFor (cred : ResolvedHostCredential) (host : String) : Bool :=
  cred.hostPatterns.any (hostMatchesPattern host)

/-- A header, with the credential it was injected for. -/
structure Header where
  name : String
  value : String
  origin : Option ResolvedHostCredential
  deriving DecidableEq

/-- Insert into the map of headers. -/
def insertHeader (headers : List Header) (header : Header) : List Header :=
  headers.filter (fun other => other.name ≠ header.name) ++ [header]

/-- A request that is ready to be sent, with the credentials whose parameters are in the query of
the URL. -/
structure Prepared where
  url : String
  headers : List Header
  queryOf : List ResolvedHostCredential
  deriving DecidableEq

/-- Replace the placeholders of credentials by their values. -/
def injectCredentials (credentials : List (String × String)) (input : String) : String :=
  String.ofList (credentials.foldl (fun result credential =>
    Replacing.replace ('\x7b' :: credential.1.toList ++ ['\x7d']) credential.2.toList result)
    input.toList)

/-- The headers of a credential are merged into those of the request. -/
def Prepared.addHeaders (prepared : Prepared) (cred : ResolvedHostCredential) : Prepared :=
  { prepared with
    headers := cred.headers.foldl
      (fun headers header => insertHeader headers ⟨header.1, header.2, some cred⟩)
      prepared.headers }

section Headers

variable {prepared : Prepared} {cred : ResolvedHostCredential}

theorem mem_insertHeader {headers : List Header} {header other : Header}
    (h : other ∈ insertHeader headers header) : other ∈ headers ∨ other = header := by
  rcases mem_append.1 h with hold | hnew
  · exact .inl (mem_filter.1 hold).1
  · exact .inr (mem_singleton.1 hnew)

/-- A header was there before, or it was injected for the credential. -/
theorem mem_addHeaders {header : Header} (h : header ∈ (prepared.addHeaders cred).headers) :
    header ∈ prepared.headers ∨ header.origin = some cred := by
  have hfold : ∀ pairs : List (String × String), ∀ headers : List Header, header ∈ pairs.foldl
        (fun headers pair => insertHeader headers ⟨pair.1, pair.2, some cred⟩) headers →
      header ∈ headers ∨ header.origin = some cred := by
    intro pairs
    induction pairs with
    | nil => exact fun headers hmem => .inl hmem
    | cons pair pairs ih =>
      intro headers hmem
      rcases ih _ hmem with hold | hnew
      · rcases mem_insertHeader hold with hbefore | rfl
        · exact .inl hbefore
        · exact .inr rfl
      · exact .inr hnew
  exact hfold _ _ h

end Headers

/-! ## Redirects -/

/-- What a client makes of headers: which it can send, which it keeps for a redirect after some
URLs, and whether it tells the URL that it comes from. -/
structure Client (Url : Type) where
  validHeader : (name value : String) → Bool
  keepsHeader : (previous : List Url) → (next : Url) → (name : String) → Bool
  sendsReferer : (previous next : Url) → Bool

/-- What a client reads of a response to decide whether to follow it. -/
structure Response where
  status : Nat
  location : Option String

/-- A request of a chain: the URLs before it, its own, and the method.  Each URL comes with whether
the query is the one that was prepared. -/
structure Hop (Url : Type) where
  previous : List (Url × Bool)
  url : Url
  hasQuery : Bool
  method : String

def redirectMethod (status : Nat) (method : String) : String :=
  if status = 301 ∨ status = 302 then (if method = "POST" then "GET" else method)
  else if status = 303 then (if method = "HEAD" then method else "GET")
  else method

/-- The request that follows a response: ten redirects are followed, to URLs that are HTTP. -/
def Hop.follow (hop : Hop Url) (response : Response) : Option (Hop Url) :=
  match response.location.bind (crate.join hop.url) with
  | none => none
  | some next =>
    if response.status ∈ [301, 302, 303, 307, 308] ∧ hop.previous.length < 10 ∧
        (crate.view next).scheme ∈ ["http", "https"] then
      some
        { previous := hop.previous ++ [(hop.url, hop.hasQuery)]
          url := next
          hasQuery := hop.hasQuery && response.location.any crate.inheritsQuery
          method := redirectMethod response.status hop.method }
    else none

/-- The chain of requests that a list of responses leads to. -/
def hops (hop : Hop Url) : List Response → List (Hop Url)
  | [] => [hop]
  | response :: responses =>
    hop ::
      match hop.follow crate response with
      | some next => hops next responses
      | none => []

/-- A request as it is sent, with the credentials whose parameters are in the query of its URL and
of the URL it comes from. -/
structure Sent (Url : Type) where
  method : String
  url : Url
  headers : List Header
  queryOf : List ResolvedHostCredential
  refererOf : List ResolvedHostCredential

/-- The client tells the URL that the request comes from, and its query is the one that was
prepared. -/
def Hop.refers (client : Client Url) (hop : Hop Url) : Bool :=
  match hop.previous.getLast? with
  | some (previous, hasQuery) => hasQuery && client.sendsReferer previous hop.url
  | none => false

/-- The headers that the client keeps. -/
def Hop.keeps (client : Client Url) (hop : Hop Url) (header : Header) : Bool :=
  hop.previous.isEmpty || client.keepsHeader (hop.previous.map Prod.fst) hop.url header.name

/-- The request at a hop. -/
def Prepared.send (client : Client Url) (prepared : Prepared) (hop : Hop Url) : Sent Url where
  method := hop.method
  url := hop.url
  headers := prepared.headers.filter (hop.keeps client)
  queryOf := if hop.hasQuery then prepared.queryOf else []
  refererOf := if hop.refers client then prepared.queryOf else []

/-- The hops of a prepared request; there are none if the client cannot build the request. -/
def Prepared.hops (client : Client Url) (prepared : Prepared) (method : String)
    (responses : List Response) : List (Hop Url) :=
  match crate.parse prepared.url with
  | .error _ => []
  | .ok url =>
    if prepared.headers.all (fun header => client.validHeader header.name header.value) then
      Guest.hops crate ⟨[], url, true, method⟩ responses
    else []

variable {hop : Hop Url}

section Hops

variable {crate} {client : Client Url} {prepared : Prepared}

theorem previous_follow {hop next : Hop Url} {response : Response}
    (h : hop.follow crate response = some next) :
    next.previous = hop.previous ++ [(hop.url, hop.hasQuery)] := by
  unfold Hop.follow at h
  split at h
  · cases h
  · split at h
    · rw [← Option.some.inj h]
    · cases h

/-- All requests but the first one follow a redirect. -/
theorem previous_ne_nil_of_mem_hops {first hop : Hop Url} {responses : List Response}
    (h : hop ∈ hops crate first responses) : hop = first ∨ hop.previous ≠ [] := by
  induction responses generalizing first with
  | nil => exact .inl (mem_singleton.1 h)
  | cons response responses ih =>
    rcases mem_cons.1 h with rfl | htail
    · exact .inl rfl
    · right
      split at htail
      · next next hnext =>
        rcases ih htail with rfl | hne
        · simp [previous_follow hnext]
        · exact hne
      · cases htail

/-- The first request has the URL and the method that were prepared. -/
theorem eq_of_mem_hops_of_nil {method : String} {responses : List Response}
    (h : hop ∈ prepared.hops crate client method responses) (hnil : hop.previous = []) :
    crate.parse prepared.url = .ok hop.url ∧ hop.method = method := by
  unfold Prepared.hops at h
  split at h
  · cases h
  · next url hurl =>
    split at h
    · rcases previous_ne_nil_of_mem_hops h with rfl | hne
      · exact ⟨hurl, rfl⟩
      · exact absurd hnil hne
    · cases h

end Hops

/-! ## What a guest may request -/

/-- The request has the credential in a header, in its URL, or in the URL it comes from. -/
def Sent.Carries (sent : Sent Url) (cred : ResolvedHostCredential) : Prop :=
  (∃ header ∈ sent.headers, header.origin = some cred) ∨ cred ∈ sent.queryOf ∨
    cred ∈ sent.refererOf

/-- The host of a URL has no address that is forbidden. -/
def ReachesPublic (resolve : List Char → Option (List IpAddr)) (forbidden : IpAddr → Bool)
    (url : Url) : Prop :=
  ∀ host ∈ (crate.view url).hostStr, ∀ addrs ∈ (crate.network resolve).lookup host,
    ∀ ip ∈ addrs, forbidden ip = false

/-- One of the patterns of the credential is for the host of a URL, as `ownHost` reads it. -/
def ResolvedHostCredential.Applies (ownHost : String → Option String)
    (cred : ResolvedHostCredential) (url : String) : Prop :=
  ∃ host, ownHost url = some host ∧ cred.isFor host = true

/-- The surroundings of a request: the reading of hosts, the state of the host, the name service,
and the addresses that must not be reached. -/
structure Policy where
  ownHost : String → Option String
  state : HostState
  resolve : List Char → Option (List IpAddr)
  forbidden : IpAddr → Bool

/-- The request goes to a URL that the allowlist accepts and to no forbidden address, and carries
only credentials for its own host. -/
structure Sent.Permitted (policy : Policy) (sent : Sent Url) : Prop where
  allowed : policy.state.checkHttpAllowed crate (crate.asStr sent.url) sent.method = .ok ()
  reaches : ReachesPublic crate policy.resolve policy.forbidden sent.url
  credentials : ∀ cred, sent.Carries cred → cred.Applies policy.ownHost (crate.asStr sent.url)

/-- The allowlist accepts the URL of a redirect, and the credentials that the client takes along
are for its host. -/
structure Hop.Admissible (client : Client Url) (policy : Policy) (prepared : Prepared)
    (hop : Hop Url) : Prop where
  allowed : policy.state.checkHttpAllowed crate (crate.asStr hop.url) hop.method = .ok ()
  headers : ∀ header ∈ prepared.headers, ∀ cred ∈ header.origin, hop.keeps client header = true →
    cred.Applies policy.ownHost (crate.asStr hop.url)
  query : ∀ cred ∈ prepared.queryOf, hop.hasQuery = true ∨ hop.refers client = true →
    cred.Applies policy.ownHost (crate.asStr hop.url)

section Permitted

variable {crate} {client : Client Url} {policy : Policy} {prepared : Prepared}

theorem carries_send_iff {cred : ResolvedHostCredential} :
    (prepared.send client hop).Carries cred ↔
      (∃ header ∈ prepared.headers, header.origin = some cred ∧ hop.keeps client header = true) ∨
        cred ∈ prepared.queryOf ∧ (hop.hasQuery = true ∨ hop.refers client = true) := by
  have hguard : ∀ condition : Bool, cred ∈ (if condition then prepared.queryOf else []) ↔
        cred ∈ prepared.queryOf ∧ condition = true := by
    intro condition
    cases condition <;> simp
  simp only [Sent.Carries, Prepared.send, mem_filter, hguard, ← and_or_left]
  refine or_congr_left (exists_congr fun header => ?_)
  rw [and_assoc, and_congr_right_iff]
  exact fun _ => and_comm

theorem permitted_send_iff : (prepared.send client hop).Permitted crate policy ↔
      ReachesPublic crate policy.resolve policy.forbidden hop.url ∧
        hop.Admissible crate client policy prepared := by
  constructor
  · rintro ⟨hallowed, hreaches, hcredentials⟩
    refine ⟨hreaches, hallowed, ?_, ?_⟩
    · intro header hmem cred horigin hkeeps
      exact hcredentials cred (carries_send_iff.2 (.inl ⟨header, hmem, horigin, hkeeps⟩))
    · intro cred hmem htaken
      exact hcredentials cred (carries_send_iff.2 (.inr ⟨hmem, htaken⟩))
  · rintro ⟨hreaches, hallowed, hheaders, hquery⟩
    refine ⟨hallowed, hreaches, fun cred hcarries => ?_⟩
    rcases carries_send_iff.1 hcarries with ⟨header, hmem, horigin, hkeeps⟩ | ⟨hmem, htaken⟩
    · exact hheaders _ hmem cred horigin hkeeps
    · exact hquery cred hmem htaken

end Permitted

/-! ## WASM tools -/

/-- A WASM tool checks the addresses of the host and does not follow redirects. -/
def toolSends (resolve : List Char → Option (List IpAddr)) (client : Client Url)
    (prepared : Prepared) (method : String) : List (Sent Url) :=
  match Wasm.rejectPrivateIp (crate.network resolve) prepared.url with
  | .error _ => []
  | .ok () => (prepared.hops crate client method []).map (prepared.send client)

section Tools

variable {crate} {resolve : List Char → Option (List IpAddr)} {client : Client Url}
  {prepared : Prepared} {method : String}

/-- A WASM tool sends at most one request, and its host has no private address. -/
theorem toolSends_public : (toolSends crate resolve client prepared method).length ≤ 1 ∧
      ∀ sent ∈ toolSends crate resolve client prepared method,
        ReachesPublic crate resolve Wasm.isPrivateIp sent.url := by
  unfold toolSends
  split
  · simp
  · next hcheck =>
    unfold Prepared.hops
    split
    · simp
    · next url hurl =>
      split
      · have hparse : (crate.network resolve).parse prepared.url = .ok (crate.view url) := by
          simp [UrlCrate.network, hurl]
        simp only [hops, map_singleton, length_singleton, le_refl, true_and,
          forall_mem_singleton]
        intro shown hshown addrs haddrs ip hip
        obtain ⟨host, hhost, rfl⟩ := Option.map_eq_some_iff.1 hshown
        exact Wasm.not_private_of_rejectPrivateIp hhost haddrs hip hparse hcheck
      · simp

end Tools

end Axinite.Net.Guest
