import Axinite.Net.Allowlist
import Axinite.Safety.LeakDetector
import Axinite.Tools

/-!
# Outbound requests of the HTTP tool

The HTTP tool reads a request from its parameters, adds the credentials that are registered
for the host, and scans the request for secrets before it is sent.  The scan runs after the
credentials were added, so it reads them as well.

The URL library is a record of operations, and a secret store answers for a user and a name.
The body is the text that the scan reads from its bytes.

Main results:

- Theorem `scanHttpRequest_eq_ok_iff`: a request passes the scan if each of its parts does.
- Theorem `inject_eq_foldl`: the credentials for the host are added one by one.
- Theorem `own_request_accepted_iff`: the credentials that keep an innocent request sendable.
-/

namespace Axinite

open Foundation.Fallible List Safety.LeakDetector

/-! ## The scan of an outbound request -/

namespace Safety

open Foundation

/-- The text of the error. -/
def LeakDetectionError.display : LeakDetectionError → String
  | secretLeakBlocked pattern preview =>
    "Secret leak blocked: pattern '" ++ pattern ++ "' matched '" ++ String.ofList preview ++ "'"

namespace LeakDetector

variable (tables : CharTables)

/-- Scan the value of every header; an error names the header. -/
def scanHeaders (detector : LeakDetector) :
    List (String × String) → Except LeakDetectionError Unit
  | [] => .ok ()
  | (name, value) :: rest => do
    let _ ← (detector.scanAndClean tables value.toList).mapError fun e =>
      .secretLeakBlocked ("header:" ++ name) e.display.toList
    detector.scanHeaders rest

/-- Scan an outbound HTTP request for potential secret leakage. -/
def scanHttpRequest (detector : LeakDetector) (url : String) (headers : List (String × String))
    (body : Option String) : Except LeakDetectionError Unit := do
  let _ ← detector.scanAndClean tables url.toList
  detector.scanHeaders tables headers
  match body with
  | none => pure ()
  | some text => (detector.scanAndClean tables text.toList).map fun _ => ()

/-- No blocking pattern reports a match in the text. -/
def Passes (detector : LeakDetector) (text : String) : Prop :=
  ∀ m ∈ (detector.scan tables text.toList).matched, m.action ≠ .block

variable {tables} {detector : LeakDetector}

theorem passes_iff {text : String} : detector.Passes tables text ↔
      ∃ cleaned, detector.scanAndClean tables text.toList = .ok cleaned := by
  have hblocked : (∃ e, detector.scanAndClean tables text.toList = .error e) ↔
      ∃ m ∈ (detector.scan tables text.toList).matched, m.action = .block :=
    scanAndClean_error_iff
  cases hscan : detector.scanAndClean tables text.toList with
  | error e =>
    obtain ⟨m, hm, hblock⟩ := hblocked.1 ⟨e, hscan⟩
    exact iff_of_false (fun h => h m hm hblock) (by simp)
  | ok cleaned =>
    refine iff_of_true (fun m hm hblock => ?_) ⟨cleaned, rfl⟩
    obtain ⟨e, he⟩ := hblocked.2 ⟨m, hm, hblock⟩
    simp [hscan] at he

theorem scanHeaders_eq_ok_iff {headers : List (String × String)} :
    detector.scanHeaders tables headers = .ok () ↔
      ∀ header ∈ headers, detector.Passes tables header.2 := by
  induction headers with
  | nil => simp [scanHeaders]
  | cons header rest ih =>
    simp [scanHeaders, bind_eq_ok_iff, ih, passes_iff]

theorem scanHttpRequest_eq_ok_iff {url : String} {headers : List (String × String)}
    {body : Option String} :
    detector.scanHttpRequest tables url headers body = .ok () ↔
      detector.Passes tables url ∧ (∀ header ∈ headers, detector.Passes tables header.2) ∧
        ∀ text ∈ body, detector.Passes tables text := by
  unfold scanHttpRequest
  simp only [bind_eq_ok_iff, exists_and_right, ← passes_iff]
  have hheaders : (∃ u : Unit, detector.scanHeaders tables headers = .ok u) ↔
      ∀ header ∈ headers, detector.Passes tables header.2 :=
    ⟨fun ⟨_, h⟩ => scanHeaders_eq_ok_iff.1 h, fun h => ⟨(), scanHeaders_eq_ok_iff.2 h⟩⟩
  rw [hheaders]
  cases body with
  | none => simp
  | some text => simp [passes_iff]

end LeakDetector
end Safety

namespace Tools

open Json
open Safety (LeakDetector)
open Foundation (CharTables)

/-! ## Parameters -/

/-- The text of a required parameter. -/
def requireStr (params : Value) (name : String) : Except ToolError String :=
  okOr ((params.get name).bind Value.asStr)
    (.invalidParameters ("missing '" ++ name ++ "' parameter"))

def headersOfFields : List (String × Value) → Except ToolError (List (String × String))
  | [] => .ok []
  | (k, v) :: rest => do
    let value ← okOr v.asStr
      (.invalidParameters ("header '" ++ k ++ "' must have a string value"))
    let out ← headersOfFields rest
    pure ((k, value) :: out)

/-- The header that an item of an array describes. -/
def headerOfItem (idx : Nat) : Value → Except ToolError (String × String)
  | .object fields => do
    let name ← okOr ((Map.get "name" fields).bind Value.asStr)
      (.invalidParameters ("headers[" ++ toString idx ++ "].name must be a string"))
    let value ← okOr ((Map.get "value" fields).bind Value.asStr)
      (.invalidParameters ("headers[" ++ toString idx ++ "].value must be a string"))
    pure (name, value)
  | _ => .error (.invalidParameters
      ("headers[" ++ toString idx ++ "] must be an object with 'name' and 'value'"))

/-- The headers of an array whose first item has the given index. -/
def headersOfItems (idx : Nat) : List Value → Except ToolError (List (String × String))
  | [] => .ok []
  | item :: rest => do
    let header ← headerOfItem idx item
    let out ← headersOfItems (idx + 1) rest
    pure (header :: out)

def parseHeadersParam : Option Value → Except ToolError (List (String × String))
  | none => .ok []
  | some (.object fields) => headersOfFields fields
  | some (.array items) => headersOfItems 0 items
  | some _ => .error (.invalidParameters
      "'headers' must be an object or an array of \x7bname, value\x7d")

/-- The methods that the tool supports. -/
inductive Method where
  | get
  | post
  | put
  | delete
  | patch
  deriving DecidableEq

/-- The method with an upper-case name. -/
def Method.ofName : String → Option Method
  | "GET" => some .get
  | "POST" => some .post
  | "PUT" => some .put
  | "DELETE" => some .delete
  | "PATCH" => some .patch
  | _ => none

/-- The body text: a string that is JSON is printed anew, any other string is taken as it is. -/
def bodyText (serde : SerdeJson) : Value → String
  | .string s => ((serde.fromStr s).map serde.toString).getD s
  | body => serde.toString body

/-! ## Credentials -/

/-- Where a secret is injected. -/
inductive CredentialLocation where
  | authorizationBearer
  | authorizationBasic (username : String)
  | header (name : String) (valuePrefix : Option String)
  | queryParam (name : String)
  | urlPath (placeholder : String)

/-- Mapping from a secret name to where it should be injected. -/
structure CredentialMapping where
  secretName : String
  location : CredentialLocation
  hostPatterns : List String

/-- The pattern is the host, or a wildcard in front of a suffix of it. -/
def hostMatchesPattern (host pattern : String) : Bool :=
  pattern == host ||
    match pattern.toList with
    | '*' :: '.' :: suffix => Net.Allowlist.wildcardSuffixMatches host.toList suffix
    | _ => false

/-- Get all credential mappings matching a host. -/
def findForHost (mappings : List CredentialMapping) (host : String) : List CredentialMapping :=
  mappings.filter fun mapping => mapping.hostPatterns.any (hostMatchesPattern host)

/-- The digit for six bits. -/
def base64Digit (bits : UInt8) : Char :=
  "ABCDEFGHIJKLMNOPQRSTUVWXYZabcdefghijklmnopqrstuvwxyz0123456789+/".toList.getD bits.toNat '='

/-- Base64 with padding, three bytes at a time. -/
def base64Encode : List UInt8 → List Char
  | [] => []
  | [b0] => [base64Digit (b0 >>> 2), base64Digit ((b0 &&& 0x03) <<< 4), '=', '=']
  | [b0, b1] =>
    [base64Digit (b0 >>> 2), base64Digit (((b0 &&& 0x03) <<< 4) ||| (b1 >>> 4)),
      base64Digit ((b1 &&& 0x0f) <<< 2), '=']
  | b0 :: b1 :: b2 :: rest =>
    base64Digit (b0 >>> 2) :: base64Digit (((b0 &&& 0x03) <<< 4) ||| (b1 >>> 4)) ::
      base64Digit (((b1 &&& 0x0f) <<< 2) ||| (b2 >>> 6)) :: base64Digit (b2 &&& 0x3f) ::
      base64Encode rest

example : base64Encode "user:pass".toUTF8.data.toList = "dXNlcjpwYXNz".toList ∧
    base64Encode "a:b!".toUTF8.data.toList = "YTpiIQ==".toList := by
  decide +kernel

/-- Headers and query parameters that a credential adds. -/
structure InjectedCredentials where
  headers : List (String × String)
  queryParams : List (String × String)

/-- Inject a secret into empty credentials; the place in a URL path is filled elsewhere. -/
def injectCredential (location : CredentialLocation) (secret : String) : InjectedCredentials :=
  match location with
  | .authorizationBearer => ⟨[("Authorization", "Bearer " ++ secret)], []⟩
  | .authorizationBasic username =>
    let credentials := username ++ ":" ++ secret
    let encoded := String.ofList (base64Encode credentials.toUTF8.data.toList)
    ⟨[("Authorization", "Basic " ++ encoded)], []⟩
  | .header name valuePrefix => ⟨[(name, valuePrefix.getD "" ++ secret)], []⟩
  | .queryParam name => ⟨[], [(name, secret)]⟩
  | .urlPath _ => ⟨[], []⟩

/-! ## The request -/

/-- The operations on URLs. -/
structure UrlCrate (Url : Type) where
  validateUrl : String → Except ToolError Url
  hostStr : Url → Option String
  asStr : Url → String
  appendPair : Url → String × String → Url

/-- A request that is about to be sent. -/
structure HttpRequest (Url : Type) where
  method : Method
  url : Url
  headers : List (String × String)
  body : Option String
  deriving DecidableEq

/-- The tool, with the credentials that are registered and the store of the secrets by user
and name. -/
structure HttpTool where
  credentialRegistry : Option (List CredentialMapping)
  secretsStore : Option (String → String → Option String)

variable {Url : Type} (crate : UrlCrate Url)

/-- The request that the caller describes. -/
def parseRequest (serde : SerdeJson) (toUppercase : String → String) (params : Value) :
    Except ToolError (HttpRequest Url) := do
  let method ← requireStr params "method"
  let url ← requireStr params "url"
  let parsedUrl ← crate.validateUrl url
  let headers ← parseHeadersParam (params.get "headers")
  let verb ← okOr (Method.ofName (toUppercase method))
    (.invalidParameters ("unsupported method: " ++ method))
  pure
    { method := verb
      url := parsedUrl
      headers := headers
      body := (params.get "body").map (bodyText serde) }

/-- Scan the request; a secret in it makes the tool refuse the call. -/
def scanRequest (tables : CharTables) (request : HttpRequest Url) : Except ToolError Unit :=
  (LeakDetector.new.scanHttpRequest tables (crate.asStr request.url) request.headers
    request.body).mapError fun e => .notAuthorized e.display

def HttpRequest.add (request : HttpRequest Url) (injected : InjectedCredentials) :
    HttpRequest Url :=
  { request with
    headers := request.headers ++ injected.headers
    url := injected.queryParams.foldl crate.appendPair request.url }

namespace HttpTool

/-- Inject the secret of one mapping; a secret that the store cannot return is skipped. -/
def injectMapping (secret : String → Option String) (request : HttpRequest Url)
    (mapping : CredentialMapping) : HttpRequest Url :=
  match secret mapping.secretName with
  | some value => request.add crate (injectCredential mapping.location value)
  | none => request

/-- Inject the credentials that are registered for the host of the request. -/
def inject (tool : HttpTool) (userId : String) (request : HttpRequest Url) : HttpRequest Url :=
  match tool.credentialRegistry, tool.secretsStore with
  | some registry, some store =>
    let host := (crate.hostStr request.url).getD ""
    (findForHost registry host).foldl (injectMapping crate (store userId)) request
  | _, _ => request

/-- The part of a call before the request is sent. -/
def prepare (tables : CharTables) (serde : SerdeJson) (toUppercase : String → String)
    (tool : HttpTool) (userId : String) (params : Value) :
    Except ToolError (HttpRequest Url) := do
  let request ← parseRequest crate serde toUppercase params
  let sent := tool.inject crate userId request
  scanRequest crate tables sent
  pure sent

/-! ## What the credentials add -/

/-- The credentials that the mappings for a host make of the secrets of a user. -/
def credentialsFor (tool : HttpTool) (userId host : String) : List InjectedCredentials :=
  match tool.credentialRegistry, tool.secretsStore with
  | some registry, some store =>
    (findForHost registry host).filterMap fun mapping =>
      (store userId mapping.secretName).map (injectCredential mapping.location)
  | _, _ => []

variable {crate} {tool : HttpTool} {userId : String} {request : HttpRequest Url}

theorem foldl_injectMapping (secret : String → Option String)
    (mappings : List CredentialMapping) (request : HttpRequest Url) :
    mappings.foldl (injectMapping crate secret) request = (mappings.filterMap fun mapping =>
        (secret mapping.secretName).map (injectCredential mapping.location)).foldl
          (HttpRequest.add crate) request := by
  induction mappings generalizing request with
  | nil => rfl
  | cons mapping rest ih =>
    rw [foldl_cons, ih]
    cases hsecret : secret mapping.secretName <;> simp [injectMapping, hsecret]

theorem inject_eq_foldl : tool.inject crate userId request =
      (tool.credentialsFor userId ((crate.hostStr request.url).getD "")).foldl
        (HttpRequest.add crate) request := by
  unfold inject credentialsFor
  split
  · exact foldl_injectMapping _ _ _
  · rfl

theorem foldl_add (credentials : List InjectedCredentials) (request : HttpRequest Url) :
    credentials.foldl (HttpRequest.add crate) request =
      { request with
        headers := request.headers ++ credentials.flatMap (·.headers)
        url := (credentials.flatMap (·.queryParams)).foldl crate.appendPair request.url } := by
  induction credentials generalizing request with
  | nil => simp
  | cons injected rest ih => simp [ih, HttpRequest.add]

/-! ## Requests that the tool refuses because of its own secrets -/

/-- The detector finds nothing to block in the headers that carry the secrets, nor in the URL
with the parameters that carry them. -/
def SecretsPass (crate : UrlCrate Url) (tables : CharTables) (tool : HttpTool)
    (userId : String) (request : HttpRequest Url) : Prop :=
  let credentials := tool.credentialsFor userId ((crate.hostStr request.url).getD "")
  (∀ injected ∈ credentials, ∀ header ∈ injected.headers,
      LeakDetector.new.Passes tables header.2) ∧
    LeakDetector.new.Passes tables
      (crate.asStr ((credentials.flatMap (·.queryParams)).foldl crate.appendPair request.url))

variable {tables : CharTables} {serde : SerdeJson} {toUppercase : String → String}
  {params : Value}

theorem scanRequest_eq_ok_iff : scanRequest crate tables request = .ok () ↔
      LeakDetector.new.Passes tables (crate.asStr request.url) ∧
        (∀ header ∈ request.headers, LeakDetector.new.Passes tables header.2) ∧
          ∀ text ∈ request.body, LeakDetector.new.Passes tables text := by
  rw [scanRequest, mapError_eq_ok_iff, LeakDetector.scanHttpRequest_eq_ok_iff]

theorem scanRequest_error {e : ToolError} (h : scanRequest crate tables request = .error e) :
    ∃ message, e = .notAuthorized message := by
  unfold scanRequest at h
  cases hscan : LeakDetector.new.scanHttpRequest tables (crate.asStr request.url)
      request.headers request.body with
  | ok u => simp [hscan, Except.mapError] at h
  | error leak =>
    simp only [hscan, Except.mapError, Except.error.injEq] at h
    exact ⟨leak.display, h.symm⟩

/-- If the caller's part of a request passes the scan, the whole request does exactly if what
was injected passes. -/
theorem scanRequest_inject_iff (hclean : scanRequest crate tables request = .ok ()) :
    scanRequest crate tables (tool.inject crate userId request) = .ok () ↔
      tool.SecretsPass crate tables userId request := by
  obtain ⟨-, hheaders, hbody⟩ := scanRequest_eq_ok_iff.1 hclean
  rw [scanRequest_eq_ok_iff, inject_eq_foldl, foldl_add]
  simp only [forall_mem_append, mem_flatMap, forall_exists_index, and_imp]
  constructor
  · rintro ⟨hurl, ⟨-, hinjected⟩, -⟩
    exact ⟨fun injected hi header hh => hinjected header injected hi hh, hurl⟩
  · rintro ⟨hinjected, hurl⟩
    exact ⟨hurl, ⟨hheaders, fun header injected hi hh => hinjected injected hi header hh⟩, hbody⟩

theorem own_request_accepted_iff
    (hparsed : parseRequest crate serde toUppercase params = .ok request)
    (hclean : scanRequest crate tables request = .ok ()) :
    (∀ message, tool.prepare crate tables serde toUppercase userId params ≠
        .error (.notAuthorized message)) ↔
      tool.SecretsPass crate tables userId request := by
  rw [← scanRequest_inject_iff hclean]
  simp only [prepare, hparsed, bind_eq_error_iff, reduceCtorEq, false_or, Except.ok.injEq,
    exists_eq_left', ne_eq, not_or, pure_ne_error, and_false, exists_false, not_false_eq_true,
    and_true]
  cases hscan : scanRequest crate tables (tool.inject crate userId request) with
  | ok u => exact iff_of_true (fun message h => nomatch h) rfl
  | error e =>
    obtain ⟨message, rfl⟩ := scanRequest_error hscan
    exact iff_of_false (fun h => h message rfl) (fun h => nomatch h)

/-- URLs as texts whose host is always the same. -/
def sampleCrate : UrlCrate String where
  validateUrl url := .ok url
  hostStr _ := some "openai.com"
  asStr url := url
  appendPair url pair := url ++ "?" ++ pair.1 ++ "=" ++ pair.2

/-- A tool with one bearer token for the host. -/
def sampleTool (secret : String) : HttpTool where
  credentialRegistry := some [⟨"openai", .authorizationBearer, ["openai.com"]⟩]
  secretsStore := some fun _ name => if name = "openai" then some secret else none

/-- A call of the service. -/
def sampleParams : Value :=
  .object [("method", .string "GET"), ("url", .string "https://openai.com")]

/-- The request of `sampleParams`. -/
def sampleRequest : HttpRequest String where
  method := .get
  url := "https://openai.com"
  headers := []
  body := none

theorem sampleParams_parsed :
    parseRequest sampleCrate nullSerde id sampleParams = .ok sampleRequest :=
  rfl

theorem sampleRequest_clean :
    scanRequest sampleCrate asciiTables sampleRequest = .ok () := by
  rw [scanRequest, LeakDetector.new_eq_tabulated]
  decide +kernel

theorem toy_secret_accepted :
    parseRequest sampleCrate nullSerde id sampleParams = .ok sampleRequest ∧
      scanRequest sampleCrate asciiTables sampleRequest = .ok () ∧
      ∀ message, (sampleTool "toy").prepare sampleCrate asciiTables nullSerde
        id "user" sampleParams ≠ .error (.notAuthorized message) := by
  have hsent : scanRequest sampleCrate asciiTables
      ((sampleTool "toy").inject sampleCrate "user" sampleRequest) = .ok () := by
    rw [scanRequest, LeakDetector.new_eq_tabulated]
    decide +kernel
  have hpass := (scanRequest_inject_iff sampleRequest_clean).1 hsent
  exact ⟨sampleParams_parsed, sampleRequest_clean,
    (own_request_accepted_iff sampleParams_parsed sampleRequest_clean).2 hpass⟩

/-- A real key is refused, although the caller's part of the request is innocent. -/
theorem real_key_refused : parseRequest sampleCrate nullSerde id sampleParams = .ok sampleRequest ∧
      scanRequest sampleCrate asciiTables sampleRequest = .ok () ∧
      (sampleTool "sk-abcdefghijklmnopqrst").prepare sampleCrate
          asciiTables nullSerde id "user" sampleParams =
        .error (.notAuthorized
          "Secret leak blocked: pattern 'header:Authorization' matched 'Secret leak blocked: pattern 'openai_api_key' matched 'sk-a********qrst''") := by
  refine ⟨sampleParams_parsed, sampleRequest_clean, ?_⟩
  unfold prepare
  refine bind_eq_error_iff.2 (.inr ⟨sampleRequest, sampleParams_parsed, ?_⟩)
  refine bind_eq_error_iff.2 (.inl ?_)
  rw [scanRequest, LeakDetector.new_eq_tabulated]
  decide +kernel

end HttpTool
end Tools
end Axinite
