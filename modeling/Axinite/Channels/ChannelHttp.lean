import Axinite.Net.GuestRequest

/-!
# HTTP requests of WASM channels

A channel's request is checked against the allowlist once, before it is handed to a client that
follows redirects by itself.  Unlike the requests of WASM tools, those of channels are never
checked against the addresses of their host.

Main results:

- Theorem `prepared_permitted`: the URL that is prepared is allowed, and the credentials that are
  injected are for its host.
- Theorem `channel_requests_permitted_iff`: all requests that are sent are permitted exactly if
  the hosts have no forbidden address and the redirects lead to allowed URLs, to whose hosts the
  client takes no credential of another.
-/

namespace Axinite.Channels

open Foundation List
open Foundation.Fallible
open Net
open Net.Guest
open Safety

/-! ## The host functions of a channel -/

inductive HttpMethod where
  | get
  | post
  | put
  | delete
  | patch
  | head
  deriving DecidableEq

namespace HttpMethod

def asStr : HttpMethod → String
  | get => "GET"
  | post => "POST"
  | put => "PUT"
  | delete => "DELETE"
  | patch => "PATCH"
  | head => "HEAD"

/-- The method of a name in upper case. -/
def ofUppercase : String → Option HttpMethod
  | "GET" => some .get
  | "POST" => some .post
  | "PUT" => some .put
  | "DELETE" => some .delete
  | "PATCH" => some .patch
  | "HEAD" => some .head
  | _ => none

end HttpMethod

/-- The readers of JSON maps and of bytes as text, and the tables of the leak detector. -/
structure Readers where
  stringMap : String → Option (List (String × String))
  fromUtf8Lossy : List UInt8 → String
  tables : CharTables

/-- The store of a channel: values for placeholders, and credentials for hosts. -/
structure ChannelStoreData where
  hostState : HostState
  credentials : List (String × String)
  hostCredentials : List ResolvedHostCredential

/-- A request of the guest. -/
structure HttpRequestParams where
  method : String
  url : String
  headersJson : String
  body : Option (List UInt8)

variable {Url : Type} (crate : UrlCrate Url)

/-- A host pattern is in lower case and not empty. -/
def hostPattern (s : String) : Option String :=
  let lower := String.ofList (crate.toLowercase s.toList)
  if lower = "" then none else some lower

/-- The host of a URL in the form in which patterns are compared. -/
def urlHost (url : String) : Option String :=
  (extractHostFromUrl crate url).bind (hostPattern crate)

/-- Append the query parameters of a credential, unless the URL does not parse. -/
def addQuery (prepared : Prepared) (cred : ResolvedHostCredential) : Prepared :=
  if cred.queryParams = [] then prepared
  else
    match crate.parse prepared.url with
    | .ok parsed =>
      { prepared with
        url := crate.asStr (cred.queryParams.foldl crate.appendPair parsed)
        queryOf := cred :: prepared.queryOf }
    | .error _ => prepared

open LeakDetector

/-- Inject the credentials that are for the host. -/
def injectHostCredentials (hostCredentials : List ResolvedHostCredential) (host : String)
    (prepared : Prepared) : Prepared :=
  hostCredentials.foldl (fun prepared cred =>
    if cred.isFor host then addQuery crate (prepared.addHeaders cred) cred else prepared) prepared

namespace ChannelStoreData

/-- The request of the guest, with values for the placeholders in its headers. -/
def fillHeaders (data : ChannelStoreData) (url : String) (rawHeaders : List (String × String)) :
    Prepared where
  url := url
  headers := rawHeaders.map fun header =>
    ⟨header.1, injectCredentials data.credentials header.2, none⟩
  queryOf := []

/-- Inject the credentials for the host of the URL, if it has one. -/
def injectForHost (data : ChannelStoreData) (prepared : Prepared) : Prepared :=
  match urlHost crate prepared.url with
  | some host => injectHostCredentials crate data.hostCredentials host prepared
  | none => prepared

/-- Check the request, count it, scan it for secrets, and inject credentials. -/
def prepareOutboundRequest (readers : Readers) (data : ChannelStoreData) (method : HttpMethod)
    (url headersJson : String) (body : Option (List UInt8)) :
    HostState × Except String Prepared :=
  let injectedUrl := injectCredentials data.credentials url
  match data.hostState.checkHttpAllowed crate injectedUrl method.asStr with
  | .error e => (data.hostState, .error ("HTTP not allowed: " ++ e))
  | .ok () =>
    let (hostState, recorded) := data.hostState.recordHttpRequest
    (hostState, do
      recorded.mapError ("Rate limit exceeded: " ++ ·)
      let rawHeaders := (readers.stringMap headersJson).getD []
      (new.scanHttpRequest readers.tables url rawHeaders
        (body.map readers.fromUtf8Lossy)).mapError fun e =>
          "Potential secret leak blocked: " ++ e.display
      pure (data.injectForHost crate (data.fillHeaders injectedUrl rawHeaders)))

/-- What is prepared for a request of the guest, and the method. -/
def prepare (readers : Readers) (data : ChannelStoreData) (params : HttpRequestParams) :
    Except String (Prepared × HttpMethod) := do
  let method ← okOr
    (HttpMethod.ofUppercase (String.ofList (crate.toUppercase params.method.toList)))
    ("Unsupported HTTP method: " ++ params.method)
  let prepared ← (data.prepareOutboundRequest crate readers method params.url params.headersJson
    params.body).2
  pure (prepared, method)

/-- The requests that are sent for a request of the guest, if these are the responses. -/
def httpRequest (readers : Readers) (client : Client Url) (data : ChannelStoreData)
    (params : HttpRequestParams) (responses : List Response) : List (Sent Url) :=
  match data.prepare crate readers params with
  | .error _ => []
  | .ok (prepared, method) =>
    (prepared.hops crate client method.asStr responses).map (prepared.send client)

end ChannelStoreData

open ChannelStoreData

/-! ## The first request -/

section Injection

variable {crate} {prepared : Prepared} {url : Url}

/-- The text parses to a URL with the same scheme, host and path as another. -/
def Resembles (crate : UrlCrate Url) (text : String) (url : Url) : Prop :=
  ∃ parsed, crate.parse text = .ok parsed ∧ crate.view parsed = crate.view url ∧
    crate.path parsed = crate.path url

theorem view_foldl_appendPair (crate : UrlCrate Url) (pairs : List (String × String)) (url : Url) :
    crate.view (pairs.foldl crate.appendPair url) = crate.view url ∧
      crate.path (pairs.foldl crate.appendPair url) = crate.path url := by
  induction pairs generalizing url with
  | nil => exact ⟨rfl, rfl⟩
  | cons pair pairs ih =>
    obtain ⟨hview, hpath⟩ := ih (crate.appendPair url pair)
    exact ⟨hview.trans (crate.view_appendPair url pair),
      hpath.trans (crate.path_appendPair url pair)⟩

/-- A request to the URL, in which all credentials are for the host. -/
structure InjectedFor (crate : UrlCrate Url) (url : Url) (host : String) (prepared : Prepared) :
    Prop where
  resembles : Resembles crate prepared.url url
  headers : ∀ header ∈ prepared.headers, ∀ cred ∈ header.origin, cred.isFor host = true
  query : ∀ cred ∈ prepared.queryOf, cred.isFor host = true

variable {host : String}

theorem injectedFor_addHeaders {cred : ResolvedHostCredential}
    (h : InjectedFor crate url host prepared) (hcred : cred.isFor host = true) :
    InjectedFor crate url host (prepared.addHeaders cred) where
  resembles := h.resembles
  headers := by
    intro header hmem other hother
    rcases mem_addHeaders hmem with hold | hnew
    · exact h.headers _ hold _ hother
    · rw [hnew, Option.mem_some_iff] at hother
      rwa [← hother]
  query := h.query

theorem injectedFor_addQuery {cred : ResolvedHostCredential}
    (h : InjectedFor crate url host prepared) (hcred : cred.isFor host = true) :
    InjectedFor crate url host (addQuery crate prepared cred) := by
  obtain ⟨parsed, hparse, hview, hpath⟩ := h.resembles
  unfold addQuery
  split
  · exact h
  · rw [hparse]
    obtain ⟨hview', hpath'⟩ := view_foldl_appendPair crate cred.queryParams parsed
    refine ⟨⟨_, crate.parse_asStr _, hview'.trans hview, hpath'.trans hpath⟩, h.headers, ?_⟩
    exact forall_mem_cons.2 ⟨hcred, h.query⟩

theorem injectedFor_injectHostCredentials
    (hostCredentials : List ResolvedHostCredential) (h : InjectedFor crate url host prepared) :
    InjectedFor crate url host (injectHostCredentials crate hostCredentials host prepared) := by
  induction hostCredentials generalizing prepared with
  | nil => exact h
  | cons cred rest ih =>
    refine ih ?_
    dsimp only
    split
    · next hcred => exact injectedFor_addQuery (injectedFor_addHeaders h hcred) hcred
    · exact h

theorem injectedFor_fillHeaders {data : ChannelStoreData} {text host : String}
    {rawHeaders : List (String × String)} (hparse : crate.parse text = .ok url) :
    InjectedFor crate url host (data.fillHeaders text rawHeaders) where
  resembles := ⟨url, hparse, rfl, rfl⟩
  headers := by
    intro header hmem cred hcred
    obtain ⟨pair, -, rfl⟩ := mem_map.1 hmem
    cases hcred
  query := by simp [fillHeaders]

end Injection

section Prepared

variable {crate} {readers : Readers} {client : Client Url} {data : ChannelStoreData}
  {params : HttpRequestParams} {prepared : Prepared} {method : HttpMethod}

/-- A request is prepared from a URL that the allowlist accepts. -/
theorem exists_checked_of_prepare (h : data.prepare crate readers params = .ok (prepared, method)) :
    ∃ text rawHeaders, data.hostState.checkHttpAllowed crate text method.asStr = .ok () ∧
      data.injectForHost crate (data.fillHeaders text rawHeaders) = prepared := by
  simp only [prepare, bind_eq_ok_iff] at h
  obtain ⟨method', -, prepared', hprepared, rfl, rfl⟩ := h
  unfold prepareOutboundRequest at hprepared
  dsimp only at hprepared
  split at hprepared
  · cases hprepared
  · next hcheck =>
    simp only [bind_eq_ok_iff, pure_eq_ok_iff] at hprepared
    obtain ⟨_, -, _, -, hpure⟩ := hprepared
    exact ⟨_, _, hcheck, hpure⟩

theorem urlHost_congr {text text' : String} {url url' : Url} (hparse : crate.parse text = .ok url)
    (hparse' : crate.parse text' = .ok url') (hview : crate.view url' = crate.view url) :
    urlHost crate text' = urlHost crate text := by
  rw [urlHost, urlHost, extractHostFromUrl_congr hparse hparse' hview]

/-- The URL that is prepared is allowed, and the credentials that are injected are for its
host. -/
theorem prepared_permitted (h : data.prepare crate readers params = .ok (prepared, method))
    {url : Url} (hurl : crate.parse prepared.url = .ok url) :
    data.hostState.checkHttpAllowed crate (crate.asStr url) method.asStr = .ok () ∧
      (∀ header ∈ prepared.headers, ∀ cred ∈ header.origin,
        cred.Applies (urlHost crate) (crate.asStr url)) ∧
      ∀ cred ∈ prepared.queryOf, cred.Applies (urlHost crate) (crate.asStr url) := by
  obtain ⟨text, rawHeaders, hcheck, rfl⟩ := exists_checked_of_prepare h
  obtain ⟨first, hparse⟩ := exists_parse_of_checkHttpAllowed hcheck
  -- what is sent differs from what was checked in the query only
  have hsame : ∀ host, InjectedFor crate first host
      (data.injectForHost crate (data.fillHeaders text rawHeaders)) →
      crate.view url = crate.view first ∧ crate.path url = crate.path first := by
    intro host hinjected
    obtain ⟨parsed, hparsed, hview, hpath⟩ := hinjected.resembles
    obtain rfl : parsed = url := Except.ok.inj (hparsed.symm.trans hurl)
    exact ⟨hview, hpath⟩
  have hchecked : crate.view url = crate.view first ∧ crate.path url = crate.path first →
      data.hostState.checkHttpAllowed crate (crate.asStr url) method.asStr = .ok () := fun hsame =>
    (checkHttpAllowed_congr hparse (crate.parse_asStr url) hsame.1 hsame.2).trans hcheck
  cases hhost : urlHost crate text with
  | none =>
    have heq : data.injectForHost crate (data.fillHeaders text rawHeaders) =
        data.fillHeaders text rawHeaders := by
      simp [injectForHost, fillHeaders, hhost]
    rw [heq] at hsame ⊢
    refine ⟨hchecked (hsame "" (injectedFor_fillHeaders hparse)), ?_, ?_⟩
    · intro header hmem cred hcred
      obtain ⟨pair, -, rfl⟩ := mem_map.1 hmem
      cases hcred
    · simp [fillHeaders]
  | some host =>
    have hinjected : InjectedFor crate first host
        (data.injectForHost crate (data.fillHeaders text rawHeaders)) := by
      simp only [injectForHost]
      rw [show (data.fillHeaders text rawHeaders).url = text from rfl, hhost]
      exact injectedFor_injectHostCredentials _ (injectedFor_fillHeaders hparse)
    have hview := hsame host hinjected
    have hown : urlHost crate (crate.asStr url) = some host := by
      rw [urlHost_congr hparse (crate.parse_asStr url) hview.1, hhost]
    exact ⟨hchecked hview,
      fun header hmem cred hcred => ⟨host, hown, hinjected.headers header hmem cred hcred⟩,
      fun cred hmem => ⟨host, hown, hinjected.query cred hmem⟩⟩

end Prepared

/-! ## All requests -/

/-- What is permitted to a channel. -/
def ChannelStoreData.policy (data : ChannelStoreData)
    (resolve : List Char → Option (List IpAddr)) (forbidden : IpAddr → Bool) : Guest.Policy where
  ownHost := urlHost crate
  state := data.hostState
  resolve := resolve
  forbidden := forbidden

/-- All requests that are sent for a request of the guest are permitted exactly if no host on the
way has a forbidden address, and every redirect leads to a URL that the allowlist accepts and for
whose host all credentials are that the client takes along. -/
theorem channel_requests_permitted_iff (readers : Readers) (client : Client Url)
    (data : ChannelStoreData) (resolve : List Char → Option (List IpAddr))
    (forbidden : IpAddr → Bool) (params : HttpRequestParams) (responses : List Response) :
    (∀ sent ∈ data.httpRequest crate readers client params responses,
      sent.Permitted crate (data.policy crate resolve forbidden)) ↔
    ∀ prepared method, data.prepare crate readers params = .ok (prepared, method) →
      ∀ hop ∈ prepared.hops crate client method.asStr responses,
        ReachesPublic crate resolve forbidden hop.url ∧ (hop.previous ≠ [] →
            hop.Admissible crate client (data.policy crate resolve forbidden) prepared) := by
  unfold httpRequest
  cases hprepare : data.prepare crate readers params with
  | error e => simp
  | ok result =>
    obtain ⟨prepared, method⟩ := result
    simp only [forall_mem_map, permitted_send_iff, Except.ok.injEq, Prod.mk.injEq]
    constructor
    · rintro h _ _ ⟨rfl, rfl⟩ hop hmem
      exact ⟨(h hop hmem).1, fun _ => (h hop hmem).2⟩
    · intro h hop hmem
      obtain ⟨hreaches, hredirect⟩ := h prepared method ⟨rfl, rfl⟩ hop hmem
      refine ⟨hreaches, ?_⟩
      by_cases hfirst : hop.previous = []
      · obtain ⟨hurl, hmethod⟩ := eq_of_mem_hops_of_nil hmem hfirst
        obtain ⟨hallowed, hheaders, hquery⟩ := prepared_permitted hprepare hurl
        refine ⟨?_, fun header hheader cred hcred _ => hheaders header hheader cred hcred,
          fun cred hcred _ => hquery cred hcred⟩
        rw [hmethod]
        exact hallowed
      · exact hredirect hfirst

/-! ## A redirect to the local host -/

section Sample

/-- A service, and the machine itself. -/
inductive Site where
  | api
  | loopback
  deriving DecidableEq

def Site.asStr : Site → String
  | api => "https://api.example.com/"
  | .loopback => "http://127.0.0.1/"

def Site.ofStr (text : String) : Except String Site :=
  if text = "https://api.example.com/" then .ok .api
  else if text = "http://127.0.0.1/" then .ok .loopback
  else .error "relative URL without a base"

def Site.view : Site → Net.Url
  | api => ⟨"https", "", none, some (.domain "api.example.com".toList), some 443⟩
  | .loopback => ⟨"http", "", none, some (.ipv4 ⟨127, 0, 0, 1⟩), some 80⟩

/-- The URLs of the two sites. -/
def siteCrate : UrlCrate Site where
  parse := Site.ofStr
  asStr := Site.asStr
  view := Site.view
  path _ := ['/']
  hostText
    | .name text => text
    | _ => "127.0.0.1".toList
  appendPair site _ := site
  join _ location := (Site.ofStr location).toOption
  inheritsQuery location := location = ""
  toLowercase text := text
  toUppercase text := text
  debug _ := "Denied"
  parse_asStr site := by cases site <;> rfl
  view_appendPair _ _ := rfl
  path_appendPair _ _ := rfl

/-- A client that drops the usual headers for credentials when it is sent to another site. -/
def siteClient : Client Site where
  validHeader _ _ := true
  keepsHeader previous next name :=
    previous.getLast? = some next || name ∉ ["Authorization", "Cookie", "Proxy-Authorization"]
  sendsReferer previous next := previous.view.scheme = "http" || next.view.scheme = "https"

def siteReaders : Readers where
  stringMap _ := some []
  fromUtf8Lossy _ := ""
  tables := asciiTables

/-- A key that is sent to the service in a header of its own. -/
def siteKey : ResolvedHostCredential where
  hostPatterns := ["api.example.com"]
  headers := [("X-Api-Key", "toy")]
  queryParams := []

/-- A channel that may only reach the service. -/
def siteData : ChannelStoreData where
  hostState := ⟨some ⟨[⟨"api.example.com".toList, none, []⟩]⟩, 0⟩
  credentials := []
  hostCredentials := [siteKey]

def siteParams : HttpRequestParams where
  method := "GET"
  url := "https://api.example.com/"
  headersJson := ""
  body := none

def sitePrepared : Prepared where
  url := "https://api.example.com/"
  headers := [⟨"X-Api-Key", "toy", some siteKey⟩]
  queryOf := []

theorem siteParams_scanned :
    new.scanHttpRequest asciiTables "https://api.example.com/" [] none =
      .ok () := by
  rw [new_eq_tabulated]
  decide +kernel

theorem siteParams_prepared :
    siteData.prepare siteCrate siteReaders siteParams = .ok (sitePrepared, .get) := by
  have hcheck : siteData.hostState.checkHttpAllowed siteCrate "https://api.example.com/" "GET" =
      .ok () := by
    decide +kernel
  have hurl : injectCredentials siteData.credentials siteParams.url =
      "https://api.example.com/" := by
    decide
  have hprepared : (siteData.prepareOutboundRequest siteCrate siteReaders .get siteParams.url
      siteParams.headersJson siteParams.body).2 = .ok sitePrepared := by
    simp only [prepareOutboundRequest, hurl, HttpMethod.asStr, hcheck]
    refine bind_eq_ok_iff.2 ⟨(), rfl, bind_eq_ok_iff.2 ⟨(), ?_, ?_⟩⟩
    · exact mapError_eq_ok_iff.2 siteParams_scanned
    · decide +kernel
  exact bind_eq_ok_iff.2 ⟨.get, rfl, bind_eq_ok_iff.2 ⟨sitePrepared, hprepared, rfl⟩⟩

/-- The request that is sent after the redirect. -/
def siteRedirected : Sent Site :=
  sitePrepared.send siteClient ⟨[(.api, true)], .loopback, false, "GET"⟩

/-- The channel follows a redirect to the machine itself, with the key of the service. -/
theorem redirect_reaches_local :
    siteRedirected ∈ siteData.httpRequest siteCrate siteReaders siteClient siteParams
        [⟨302, some "http://127.0.0.1/"⟩] ∧
      siteData.hostState.checkHttpAllowed siteCrate (siteCrate.asStr siteRedirected.url)
        siteRedirected.method ≠ .ok () ∧
      ¬ ReachesPublic siteCrate (fun _ => none) Wasm.isPrivateIp siteRedirected.url ∧
      siteRedirected.Carries siteKey ∧
      ¬ siteKey.Applies (urlHost siteCrate) (siteCrate.asStr siteRedirected.url) := by
  refine ⟨?_, by decide +kernel, fun hpublic => ?_, ?_, ?_⟩
  · rw [httpRequest, siteParams_prepared]
    exact mem_cons_of_mem _ mem_cons_self
  · have hloopback := hpublic (.v4 ⟨127, 0, 0, 1⟩) rfl _ rfl (.v4 ⟨127, 0, 0, 1⟩) mem_cons_self
    exact absurd hloopback (by decide)
  · exact Or.inl ⟨⟨"X-Api-Key", "toy", some siteKey⟩, by decide, rfl⟩
  · rintro ⟨host, hhost, hfor⟩
    have hlocal : urlHost siteCrate "http://127.0.0.1/" = some "127.0.0.1" := by decide +kernel
    obtain rfl : "127.0.0.1" = host := Option.some.inj (hlocal.symm.trans hhost)
    exact absurd hfor (by decide +kernel)

end Sample

end Axinite.Channels
