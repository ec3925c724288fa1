import Axinite.Foundation.Fallible
import Axinite.Net.Addresses
import Mathlib.Data.List.DropRight

/-!
# URL checks of outbound requests

Each component that makes outbound requests checks the URL before it connects: a host that
is an address goes through the address filter, any other host is looked up and all its
addresses go through the filter.  The parser of the `url` crate and the name service are
outside of the program and enter as the record `Network`.

The crate prints an IPv6 host in brackets.  A bracketed address is not parsed as an address,
so the checks that do not strip the brackets see it through the lookup only, which returns
the address itself.  `HostStr` keeps exactly these differences between host texts.

Main results:

- Theorem `not_refused_of_accepts`: no check accepts a URL that reaches a refused address,
  apart from the plain HTTP that the MCP check allows for `localhost`.
- Theorem `getsIpv4Verdict_iff`: a filter treats the mapped form of a refused IPv4 address
  like the address itself exactly when it unmaps.
-/

namespace Axinite.Net

open Foundation.Fallible List

/-! ## URLs and their hosts -/

/-- The host of a parsed URL. -/
inductive Host where
  | domain (name : List Char)
  | ipv4 (ip : Ipv4Addr)
  | ipv6 (ip : Ipv6Addr)
  deriving DecidableEq

/-- The parts of a parsed URL that the checks read; the port is the explicit one or the
default of the scheme. -/
structure Url where
  scheme : String
  username : String
  password : Option String
  host : Option Host
  portOrKnownDefault : Option UInt16
  deriving DecidableEq

/-- The text of a host: a name, or an address as the crate prints it, with its brackets or
without them. -/
inductive HostStr where
  | name (text : List Char)
  | v4 (ip : Ipv4Addr)
  | bracketed (ip : Ipv6Addr)
  | bare (ip : Ipv6Addr)
  deriving DecidableEq

/-- The text of a host as the crate prints it. -/
def Host.hostStr : Host → HostStr
  | domain name => .name name
  | ipv4 ip => .v4 ip
  | ipv6 ip => .bracketed ip

def Url.hostStr (url : Url) : Option HostStr :=
  url.host.map Host.hostStr

namespace HostStr

/-- The address that the text denotes; brackets do not belong to an address. -/
def parseIp : HostStr → Option IpAddr
  | name _ => none
  | v4 ip => some (.v4 ip)
  | bracketed _ => none
  | bare ip => some (.v6 ip)

/-- The text without the brackets around an IPv6 address. -/
def stripBrackets : HostStr → HostStr
  | bracketed ip => bare ip
  | host => host

end HostStr

/-- The parser of URLs and the name service. -/
structure Network where
  parse : String → Except String Url
  resolve : List Char → Option (List IpAddr)

/-- The addresses behind a host and a port; an address is its own result, in brackets or
not. -/
def Network.lookup (net : Network) : HostStr → Option (List IpAddr)
  | .name text => net.resolve text
  | .v4 ip => some [.v4 ip]
  | .bracketed ip => some [.v6 ip]
  | .bare ip => some [.v6 ip]

@[simp]
theorem Network.lookup_stripBrackets (net : Network) (host : HostStr) :
    net.lookup host.stripBrackets = net.lookup host := by
  cases host <;> rfl

open Network

theorem Network.lookup_of_parseIp (net : Network) {host : HostStr} {ip : IpAddr}
    (h : host.parseIp = some ip) : net.lookup host = some [ip] := by
  cases host with
  | name text => simp [HostStr.parseIp] at h
  | v4 ip => simpa [HostStr.parseIp, lookup] using h
  | bracketed ip => simp [HostStr.parseIp] at h
  | bare ip => simpa [HostStr.parseIp, lookup] using h

/-- Reasons to refuse a URL. -/
inductive Refusal where
  | invalidUrl (reason : String)
  | scheme (scheme : String)
  | userinfo
  | noHost
  | noPort
  | forbiddenName (host : HostStr)
  | forbiddenAddress (host : HostStr) (ip : IpAddr)
  | lookupFailed (host : HostStr)
  | noAddresses (host : HostStr)
  | tooManyRedirects

def Network.parseUrl (net : Network) (text : String) : Except Refusal Url :=
  (net.parse text).mapError .invalidUrl

/-- The text of the host, if the URL has one. -/
def Url.requireHost (url : Url) : Except Refusal HostStr :=
  match url.hostStr with
  | some host => .ok host
  | none => .error .noHost

/-- The addresses behind a host, if the lookup succeeds. -/
def Network.requireLookup (net : Network) (host : HostStr) : Except Refusal (List IpAddr) :=
  match net.lookup host with
  | some addrs => .ok addrs
  | none => .error (.lookupFailed host)

variable {u : Unit} {net : Network} {url : Url} {host : HostStr}

@[simp]
theorem Network.parseUrl_eq_ok_iff {text : String} {url : Url} :
    net.parseUrl text = .ok url ↔ net.parse text = .ok url :=
  mapError_eq_ok_iff

@[simp]
theorem Url.requireHost_eq_ok_iff : url.requireHost = .ok host ↔ url.hostStr = some host := by
  unfold requireHost
  split <;> simp_all

@[simp]
theorem Network.requireLookup_eq_ok_iff {addrs : List IpAddr} :
    net.requireLookup host = .ok addrs ↔ net.lookup host = some addrs := by
  unfold requireLookup
  split <;> simp_all

/-- Go through the addresses of a host and stop at the first one that is refused. -/
def screen (refuses : IpAddr → Bool) (host : HostStr) : List IpAddr → Except Refusal Unit
  | [] => .ok ()
  | ip :: addrs =>
    if refuses ip then .error (.forbiddenAddress host ip) else screen refuses host addrs

theorem not_refused_of_screen {refuses : IpAddr → Bool} {host : HostStr} {addrs : List IpAddr}
    {ip : IpAddr} (h : screen refuses host addrs = .ok ()) (hip : ip ∈ addrs) :
    refuses ip = false := by
  induction addrs with
  | nil => cases hip
  | cons first addrs ih =>
    unfold screen at h
    split at h
    · cases h
    · rename_i hfirst
      rcases mem_cons.1 hip with rfl | hrest
      · exact Bool.eq_false_iff.2 hfirst
      · exact ih h hrest

open Option

/-- A host that is an address has no other address than the one that was screened. -/
theorem not_refused_of_literal {refuses : IpAddr → Bool} {net : Network} {host shown : HostStr}
    {literal ip : IpAddr} {addrs : List IpAddr} (hparse : host.parseIp = some literal)
    (h : screen refuses shown [literal] = .ok ()) (hlookup : net.lookup host = some addrs)
    (hip : ip ∈ addrs) : refuses ip = false := by
  rw [net.lookup_of_parseIp hparse, some.injEq] at hlookup
  exact not_refused_of_screen h (hlookup ▸ hip)

/-- The characters of a host name in lower case. -/
def toLowercase (name : List Char) : List Char :=
  name.map Char.toLower

/-! ## The HTTP tool -/

namespace Http

def ensureHttps (url : Url) : Except Refusal Unit :=
  ensure (url.scheme = "https") (.scheme url.scheme)

/-- The host is `localhost` or a name below it. -/
def isLocalhost : HostStr → Bool
  | .name text =>
    toLowercase text = "localhost".toList || ".localhost".toList.isSuffixOf (toLowercase text)
  | _ => false

def ensureNotLocalhost (host : HostStr) : Except Refusal Unit :=
  ensure (isLocalhost host = false) (.forbiddenName host)

def ensureLiteralIpAllowed (host : HostStr) : Except Refusal Unit :=
  match host.parseIp with
  | some ip => screen isDisallowedIp host [ip]
  | none => .ok ()

/-- A name that cannot be looked up is left to the client. -/
def ensureResolvedIpsAllowed (net : Network) (host : HostStr) : Except Refusal Unit :=
  match net.lookup host with
  | some addrs => screen isDisallowedIp host addrs
  | none => .ok ()

/-- The check of the URL that the caller of the tool gives. -/
def validateUrl (net : Network) (text : String) : Except Refusal Url := do
  let url ← net.parseUrl text
  ensureHttps url
  let host ← url.requireHost
  ensureNotLocalhost host
  ensureLiteralIpAllowed host
  ensureResolvedIpsAllowed net host
  return url

/-- The check of a URL that a server redirects to. -/
def redirectPolicy (net : Network) (previous : Nat) (url : Url) : Except Refusal Unit := do
  ensure (previous < 10) .tooManyRedirects
  ensureHttps url
  match url.hostStr with
  | some host =>
    ensureNotLocalhost host
    ensureLiteralIpAllowed host
    ensureResolvedIpsAllowed net host
  | none => return ()

end Http

/-! ## The HTTP wrapper of WASM tools -/

namespace Wasm

def parseOutboundUrl (net : Network) (text : String) : Except Refusal Url := do
  let url ← net.parseUrl text
  ensure (url.scheme = "http" ∨ url.scheme = "https") (.scheme url.scheme)
  ensure (url.username = "" ∧ url.password = none) .userinfo
  return url

def outboundUrlHost (url : Url) : Except Refusal HostStr :=
  url.requireHost.map HostStr.stripBrackets

def rejectPrivateIpLiteral (host : HostStr) (ip : IpAddr) : Except Refusal Unit :=
  screen isPrivateIp host [ip]

def rejectPrivateResolvedAddresses (net : Network) (host : HostStr) : Except Refusal Unit := do
  let addrs ← net.requireLookup host
  ensure (addrs ≠ []) (.noAddresses host)
  screen isPrivateIp host addrs

/-- The check of a URL that a WASM tool requests. -/
def rejectPrivateIp (net : Network) (text : String) : Except Refusal Unit := do
  let url ← parseOutboundUrl net text
  let host ← outboundUrlHost url
  match host.parseIp with
  | some ip => rejectPrivateIpLiteral host ip
  | none => rejectPrivateResolvedAddresses net host

end Wasm

/-! ## Fetching skills -/

namespace SkillFetch

/-- An HTTPS URL with a host. -/
def httpsUrl (net : Network) (text : String) : Except Refusal Url := do
  let url ← net.parseUrl text
  ensure (url.scheme = "https") (.scheme url.scheme)
  ensure url.host.isSome .noHost
  return url

/-- A domain name without trailing dots, in lower case. -/
def normalizedDomain (name : List Char) : List Char :=
  toLowercase (name.rdropWhile (· = '.'))

def isBlockedHostname (name : List Char) : Bool :=
  name = "localhost".toList || name = "metadata.google.internal".toList ||
    ".internal".toList.isSuffixOf name || ".local".toList.isSuffixOf name

def validateFetchIp (host : HostStr) (ip : IpAddr) : Except Refusal Unit :=
  screen isNonRoutableIp host [ip]

def validateFetchUrl (url : Url) : Except Refusal Url := do
  match url.host with
  | none => throw .noHost
  | some (.ipv4 ip) => validateFetchIp (.v4 ip) (.v4 ip)
  | some (.ipv6 ip) => validateFetchIp (.bracketed ip) (normalizeIp (.v6 ip))
  | some (.domain name) =>
    ensure (isBlockedHostname (normalizedDomain name) = false) (.forbiddenName (.name name))
  return url

def validateResolvedAddrs (host : HostStr) (addrs : List IpAddr) : Except Refusal Unit := do
  ensure (addrs ≠ []) (.noAddresses host)
  screen (fun ip => isNonRoutableIp (normalizeIp ip)) host addrs

/-- Look the host up and screen what comes back; the client is pinned to these addresses. -/
def buildSafeFetchClient (net : Network) (url : Url) : Except Refusal Unit :=
  match url.host with
  | none => .error .noHost
  | some (.ipv4 _) => .ok ()
  | some (.ipv6 _) => .ok ()
  | some (.domain name) => do
    let lookupHost := HostStr.name (normalizedDomain name)
    ensure url.portOrKnownDefault.isSome .noPort
    let addrs ← net.requireLookup lookupHost
    validateResolvedAddrs lookupHost addrs

/-- The checks before a skill is fetched. -/
def checkFetch (net : Network) (text : String) : Except Refusal Unit := do
  let https ← httpsUrl net text
  let url ← validateFetchUrl https
  buildSafeFetchClient net url

end SkillFetch

/-! ## Webhooks -/

namespace Webhook

def isForbiddenWebhookHost : HostStr → Bool
  | .name text =>
    let lower := toLowercase text
    lower = "localhost".toList || ".localhost".toList.isSuffixOf lower ||
      lower = "host.docker.internal".toList || lower = "metadata.google.internal".toList ||
      lower = "metadata.aws.internal".toList
  | _ => false

def ensureWebhookHostAllowed (host : HostStr) : Except Refusal Unit :=
  let normalizedHost := host.stripBrackets
  match normalizedHost.parseIp with
  | some ip => screen isForbiddenIp normalizedHost [ip]
  | none =>
    ensure (isForbiddenWebhookHost normalizedHost = false) (.forbiddenName normalizedHost)

/-- The check of a webhook URL when the hook is loaded. -/
def validateWebhookUrl (net : Network) (text : String) : Except Refusal Url := do
  let url ← net.parseUrl text
  ensure (url.scheme = "https") (.scheme url.scheme)
  ensure (url.username = "" ∧ url.password = none) .userinfo
  match url.hostStr with
  | some host => ensureWebhookHostAllowed host
  | none => pure ()
  return url

def resolveAndScreen (net : Network) (host : HostStr) : Except Refusal Unit := do
  let addrs ← net.requireLookup host
  ensure (addrs ≠ []) (.noAddresses host)
  screen isForbiddenIp host addrs

/-- The check of a webhook URL before each delivery. -/
def dispatchClientForTarget (net : Network) (text : String) : Except Refusal Unit := do
  let url ← net.parseUrl text
  let host ← url.requireHost
  let normalizedHost := host.stripBrackets
  match normalizedHost.parseIp with
  | some ip => screen isForbiddenIp normalizedHost [ip]
  | none =>
    ensure url.portOrKnownDefault.isSome .noPort
    resolveAndScreen net normalizedHost

end Webhook

/-! ## Authorization of MCP servers -/

namespace McpAuth

/-- The host text is an alias of the local machine. -/
def isLocalhostHost : HostStr → Bool
  | .name text => text = "localhost".toList
  | .v4 ip => ip = ⟨127, 0, 0, 1⟩
  | .bracketed ip => ip.isLoopback
  | .bare ip => ip.isLoopback

/-- Plain HTTP is for the local machine only. -/
def validateHttpHostIsLocalhost (url : Url) : Except Refusal Unit :=
  let host := url.hostStr.getD (.name [])
  ensure (isLocalhostHost host) (.forbiddenName host)

def checkIpLiteral (host : HostStr) (ip : IpAddr) : Except Refusal Unit :=
  screen isDangerousIp host [ip]

def checkResolvedAddresses (net : Network) (host : HostStr) : Except Refusal Unit := do
  let addrs ← net.requireLookup host
  screen isDangerousIp host addrs

/-- The check of a URL that an MCP server announces. -/
def validateUrlSafe (net : Network) (text : String) : Except Refusal Unit := do
  let url ← net.parseUrl text
  ensure (url.scheme = "https" ∨ url.scheme = "http") (.scheme url.scheme)
  if url.scheme = "http" then validateHttpHostIsLocalhost url
  else
    let host ← url.requireHost
    match host.parseIp with
    | some ip => checkIpLiteral host ip
    | none => checkResolvedAddresses net host

end McpAuth

/-! ## What an accepted URL reaches -/

namespace Filter

/-- The check of a component accepts the URL; a redirect is checked after `previous` others. -/
def accepts (net : Network) (text : String) : Filter → Bool
  | http => (Http.validateUrl net text).isOk
  | httpRedirect previous =>
    match net.parse text with
    | .ok url => (Http.redirectPolicy net previous url).isOk
    | .error _ => false
  | wasm => (Wasm.rejectPrivateIp net text).isOk
  | skillFetch => (SkillFetch.checkFetch net text).isOk
  | webhook =>
    (Webhook.validateWebhookUrl net text).isOk && (Webhook.dispatchClientForTarget net text).isOk
  | mcpAuth => (McpAuth.validateUrlSafe net text).isOk

/-- The host text that a component looks up. -/
def lookedUp : Filter → Host → HostStr
  | skillFetch, .domain name => .name (SkillFetch.normalizedDomain name)
  | _, host => host.hostStr

/-- The host of the URL is the address or resolves to it. -/
def Reaches (filter : Filter) (net : Network) (url : Url) (ip : IpAddr) : Prop :=
  ∃ host addrs, url.host = some host ∧ net.lookup (filter.lookedUp host) = some addrs ∧ ip ∈ addrs

end Filter

section Soundness

variable {net : Network} {text : String} {url : Url} {host : Host} {addrs : List IpAddr}
  {ip : IpAddr}

theorem SkillFetch.not_nonRoutable_of_checkFetch (h : checkFetch net text = .ok u)
    (hparse : net.parse text = .ok url) (hhost : url.host = some host)
    (hlookup : net.lookup (Filter.skillFetch.lookedUp host) = some addrs) (hip : ip ∈ addrs) :
    isNonRoutableIp (normalizeIp ip) = false := by
  simp only [checkFetch, httpsUrl, bind_eq_ok_iff, parseUrl_eq_ok_iff, hparse,
    Except.ok.injEq, pure_eq_ok_iff] at h
  obtain ⟨_, ⟨_, rfl, _, -, _, -, rfl⟩, checked, hchecked, hclient⟩ := h
  cases host with
  | ipv4 literal | ipv6 literal =>
    simp only [validateFetchUrl, hhost, bind_eq_ok_iff] at hchecked
    obtain ⟨_, hscreened, -⟩ := hchecked
    obtain rfl : [_] = addrs := some.inj hlookup
    obtain rfl := mem_singleton.1 hip
    exact not_refused_of_screen hscreened (mem_singleton_self _)
  | domain name =>
    simp only [validateFetchUrl, hhost, bind_eq_ok_iff, pure_eq_ok_iff] at hchecked
    obtain ⟨_, -, rfl⟩ := hchecked
    simp only [buildSafeFetchClient, hhost, validateResolvedAddrs, bind_eq_ok_iff,
      requireLookup_eq_ok_iff] at hclient
    obtain ⟨_, -, resolved, hresolved, _, -, hscreened⟩ := hclient
    obtain rfl : addrs = resolved := some.inj (hlookup.symm.trans hresolved)
    have hnormalized := not_refused_of_screen hscreened hip
    exact hnormalized

theorem Http.not_disallowed_of_resolved {shown : HostStr} {u : Unit}
    (h : ensureResolvedIpsAllowed net shown = .ok u) (hlookup : net.lookup shown = some addrs)
    (hip : ip ∈ addrs) : isDisallowedIp ip = false := by
  simp only [ensureResolvedIpsAllowed, hlookup] at h
  exact not_refused_of_screen h hip

variable (hhost : url.host = some host) (hlookup : net.lookup host.hostStr = some addrs)
  (hip : ip ∈ addrs) (hparse : net.parse text = .ok url)

include hhost hlookup hip

theorem Http.not_disallowed_of_redirectPolicy {previous : Nat} {u : Unit}
    (h : redirectPolicy net previous url = .ok u) : isDisallowedIp ip = false := by
  simp only [redirectPolicy, bind_eq_ok_iff, Url.hostStr, hhost, map_some] at h
  obtain ⟨_, -, _, -, _, -, _, -, hresolved⟩ := h
  exact not_disallowed_of_resolved hresolved hlookup hip

include hparse

theorem Http.not_disallowed_of_validateUrl {checked : Url}
    (h : validateUrl net text = .ok checked) : isDisallowedIp ip = false := by
  simp only [validateUrl, bind_eq_ok_iff, parseUrl_eq_ok_iff, Url.requireHost_eq_ok_iff,
    hparse, Except.ok.injEq] at h
  obtain ⟨_, rfl, _, -, shown, hshown, _, -, _, -, _, hresolved, -⟩ := h
  rw [Url.hostStr, hhost, map_some, some.injEq] at hshown
  exact not_disallowed_of_resolved hresolved (hshown ▸ hlookup) hip

theorem Wasm.not_private_of_rejectPrivateIp (h : rejectPrivateIp net text = .ok u) :
    isPrivateIp ip = false := by
  simp only [rejectPrivateIp, parseOutboundUrl, outboundUrlHost, bind_eq_ok_iff, parseUrl_eq_ok_iff,
    hparse, Except.ok.injEq, map_eq_ok_iff, Url.requireHost_eq_ok_iff, pure_eq_ok_iff] at h
  obtain ⟨_, ⟨_, rfl, _, -, _, -, rfl⟩, _, ⟨shown, hshown, rfl⟩, hscreened⟩ := h
  rw [Url.hostStr, hhost, map_some, some.injEq] at hshown
  rw [hshown, ← net.lookup_stripBrackets] at hlookup
  cases hliteral : shown.stripBrackets.parseIp with
  | some literal =>
    rw [hliteral] at hscreened
    exact not_refused_of_literal hliteral hscreened hlookup hip
  | none =>
    simp only [hliteral, rejectPrivateResolvedAddresses, bind_eq_ok_iff,
      requireLookup_eq_ok_iff, hlookup, some.injEq] at hscreened
    obtain ⟨_, rfl, _, -, hscreened⟩ := hscreened
    exact not_refused_of_screen hscreened hip

theorem Webhook.not_forbidden_of_dispatch (h : dispatchClientForTarget net text = .ok u) :
    isForbiddenIp ip = false := by
  simp only [dispatchClientForTarget, bind_eq_ok_iff, parseUrl_eq_ok_iff, hparse,
    Except.ok.injEq, Url.requireHost_eq_ok_iff] at h
  obtain ⟨_, rfl, shown, hshown, hscreened⟩ := h
  rw [Url.hostStr, hhost, map_some, some.injEq] at hshown
  rw [hshown, ← net.lookup_stripBrackets] at hlookup
  cases hliteral : shown.stripBrackets.parseIp with
  | some literal =>
    rw [hliteral] at hscreened
    exact not_refused_of_literal hliteral hscreened hlookup hip
  | none =>
    simp only [hliteral, resolveAndScreen, bind_eq_ok_iff, requireLookup_eq_ok_iff,
      hlookup, some.injEq] at hscreened
    obtain ⟨_, -, _, rfl, _, -, hscreened⟩ := hscreened
    exact not_refused_of_screen hscreened hip

theorem McpAuth.not_dangerous_of_validateUrlSafe (h : validateUrlSafe net text = .ok u)
    (hscheme : url.scheme ≠ "http") : isDangerousIp ip = false := by
  simp only [validateUrlSafe, bind_eq_ok_iff, parseUrl_eq_ok_iff, hparse, Except.ok.injEq] at h
  obtain ⟨_, rfl, _, -, h⟩ := h
  simp only [if_neg hscheme, bind_eq_ok_iff, Url.requireHost_eq_ok_iff, Url.hostStr, hhost,
    map_some, some.injEq] at h
  obtain ⟨shown, rfl, hscreened⟩ := h
  cases hliteral : host.hostStr.parseIp with
  | some literal =>
    rw [hliteral] at hscreened
    exact not_refused_of_literal hliteral hscreened hlookup hip
  | none =>
    simp only [hliteral, checkResolvedAddresses, bind_eq_ok_iff,
      requireLookup_eq_ok_iff, hlookup, some.injEq] at hscreened
    obtain ⟨_, rfl, hscreened⟩ := hscreened
    exact not_refused_of_screen hscreened hip

omit hlookup hip in
/-- Plain HTTP is accepted for the aliases of the local machine only. -/
theorem McpAuth.isLocalhostHost_of_validateUrlSafe (h : validateUrlSafe net text = .ok u)
    (hscheme : url.scheme = "http") : isLocalhostHost host.hostStr = true := by
  simp only [validateUrlSafe, bind_eq_ok_iff, parseUrl_eq_ok_iff, hparse, Except.ok.injEq] at h
  obtain ⟨_, rfl, _, -, h⟩ := h
  simpa [hscheme, validateHttpHostIsLocalhost, Url.hostStr, hhost] using h

omit hhost hlookup hip in
/-- No check accepts a URL that reaches a refused address, except that the MCP check accepts
plain HTTP to the local machine. -/
theorem Filter.not_refused_of_accepts {filter : Filter} (h : filter.accepts net text = true)
    (hreach : filter.Reaches net url ip) (hplain : filter = mcpAuth → url.scheme ≠ "http") :
    filter.refuses ip = false := by
  obtain ⟨host, addrs, hhost, hlookup, hip⟩ := hreach
  cases filter with
  | http =>
    obtain ⟨checked, hok⟩ := isOk_iff.1 h
    exact Http.not_disallowed_of_validateUrl hhost hlookup hip hparse hok
  | httpRedirect previous =>
    simp only [accepts, hparse] at h
    obtain ⟨_, hok⟩ := isOk_iff.1 h
    exact Http.not_disallowed_of_redirectPolicy hhost hlookup hip hok
  | wasm =>
    obtain ⟨_, hok⟩ := isOk_iff.1 h
    exact Wasm.not_private_of_rejectPrivateIp hhost hlookup hip hparse hok
  | skillFetch =>
    obtain ⟨_, hok⟩ := isOk_iff.1 h
    exact SkillFetch.not_nonRoutable_of_checkFetch hok hparse hhost hlookup hip
  | webhook =>
    obtain ⟨_, hok⟩ := isOk_iff.1 ((Bool.and_eq_true _ _).mp h).2
    exact Webhook.not_forbidden_of_dispatch hhost hlookup hip hparse hok
  | mcpAuth =>
    obtain ⟨_, hok⟩ := isOk_iff.1 h
    exact McpAuth.not_dangerous_of_validateUrlSafe hhost hlookup hip hparse hok (hplain rfl)

end Soundness

open Filter Http

/-! ## Mapped addresses -/

/-- The filter treats the mapped form of the address like the address, if it refuses it: it
refuses the mapped form, and its URL check accepts no URL that reaches it. -/
def GetsIpv4Verdict (net : Network) (filter : Filter) (a : Ipv4Addr) : Prop :=
  filter.refuses (.v4 a) = true →
    filter.refuses (.v6 a.toIpv6Mapped) = true ∧
      ∀ text url, net.parse text = .ok url → filter.Reaches net url (.v6 a.toIpv6Mapped) →
        filter.accepts net text = false

/-- Some text is a plain HTTP URL of `localhost`, and `localhost` resolves to the address. -/
def Network.HttpLocalhostReaches (net : Network) (ip : IpAddr) : Prop :=
  ∃ text url, net.parse text = .ok url ∧ url.scheme = "http" ∧
    url.host = some (.domain "localhost".toList) ∧
      mcpAuth.Reaches net url ip

/-- Plain HTTP reaches a mapped address only through the name `localhost`. -/
theorem domain_of_plain_http {text : String} {url : Url} {a : Ipv4Addr}
    (h : mcpAuth.accepts net text = true) (hparse : net.parse text = .ok url)
    (hscheme : url.scheme = "http") (hreach : mcpAuth.Reaches net url (.v6 a.toIpv6Mapped)) :
    url.host = some (.domain "localhost".toList) := by
  obtain ⟨host, addrs, hhost, hlookup, hip⟩ := hreach
  obtain ⟨_, hok⟩ := isOk_iff.1 h
  have hlocal := McpAuth.isLocalhostHost_of_validateUrlSafe hhost hparse hok hscheme
  cases host with
  | domain name =>
    obtain rfl : name = "localhost".toList := of_decide_eq_true hlocal
    exact hhost
  | ipv4 literal =>
    obtain rfl : [IpAddr.v4 literal] = addrs := some.inj hlookup
    cases mem_singleton.1 hip
  | ipv6 literal =>
    obtain rfl : [IpAddr.v6 literal] = addrs := some.inj hlookup
    have hmapped : a.toIpv6Mapped = literal := IpAddr.v6.inj (mem_singleton.1 hip)
    have hloopback : literal.isLoopback = true := hlocal
    rw [← hmapped] at hloopback
    cases hloopback

theorem accepts_httpLocalhost {text : String} {url : Url} (hparse : net.parse text = .ok url)
    (hscheme : url.scheme = "http") (hhost : url.host = some (.domain "localhost".toList)) :
    mcpAuth.accepts net text = true := by
  have hok : McpAuth.validateUrlSafe net text = .ok () := by
    simp only [McpAuth.validateUrlSafe, bind_eq_ok_iff, parseUrl_eq_ok_iff, hparse]
    refine ⟨url, rfl, (), ?_, ?_⟩
    · exact ensure_eq_ok_iff.2 (.inr hscheme)
    · have hlocal : McpAuth.isLocalhostHost (.name "localhost".toList) = true := by
        unfold McpAuth.isLocalhostHost
        exact decide_eq_true rfl
      rw [if_pos hscheme, McpAuth.validateHttpHostIsLocalhost, Url.hostStr, hhost]
      exact ensure_eq_ok_iff.2 hlocal
  exact isOk_iff.2 ⟨(), hok⟩

/-- A filter gives the mapped form of an IPv4 address the verdict of the address exactly when
it does not refuse the address, or it unmaps and no plain HTTP URL of `localhost` leads there
past the MCP check. -/
theorem getsIpv4Verdict_iff (net : Network) (filter : Filter) (a : Ipv4Addr) :
    GetsIpv4Verdict net filter a ↔ (filter.refuses (.v4 a) = true → filter.Unmaps ∧
        (filter = .mcpAuth → ¬ net.HttpLocalhostReaches (.v6 a.toIpv6Mapped))) := by
  constructor
  · intro h hrefused
    obtain ⟨hmapped, hurls⟩ := h hrefused
    have hunmaps : filter.Unmaps := by
      by_contra hnot
      rw [refuses_mapped_of_not_unmaps hnot] at hmapped
      cases hmapped
    refine ⟨hunmaps, ?_⟩
    rintro rfl ⟨text, url, hparse, hscheme, hhost, hreach⟩
    have hrejected := hurls text url hparse hreach
    rw [accepts_httpLocalhost hparse hscheme hhost] at hrejected
    cases hrejected
  · intro h hrefused
    obtain ⟨hunmaps, hlocal⟩ := h hrefused
    have hmapped : filter.refuses (.v6 a.toIpv6Mapped) = true := by
      rw [refuses_mapped_of_unmaps hunmaps, hrefused]
    refine ⟨hmapped, ?_⟩
    intro text url hparse hreach
    by_contra haccepted
    rw [Bool.not_eq_false] at haccepted
    have hplain : filter = .mcpAuth → url.scheme ≠ "http" := by
      rintro rfl hscheme
      exact hlocal rfl ⟨text, url, hparse, hscheme,
        domain_of_plain_http haccepted hparse hscheme hreach, hreach⟩
    rw [not_refused_of_accepts hparse haccepted hreach hplain] at hmapped
    cases hmapped

/-- A network with a single HTTPS URL, whose host is the mapped form of an address. -/
def mappedLiteral (a : Ipv4Addr) : Network where
  parse := fun _ => .ok ⟨"https", "", none, some (.ipv6 a.toIpv6Mapped), some 443⟩
  resolve := fun _ => none

/-- The cloud metadata endpoint is refused, but its mapped form is fetched by the HTTP tool,
followed in redirects and reached by WASM tools. -/
theorem mapped_metadata_endpoint_accepted :
    (http.accepts (mappedLiteral metadataEndpoint) "https://[::ffff:169.254.169.254]/" ∧
        ¬ GetsIpv4Verdict (mappedLiteral metadataEndpoint) .http metadataEndpoint) ∧
      ((httpRedirect 1).accepts (mappedLiteral metadataEndpoint)
          "https://[::ffff:169.254.169.254]/" ∧
        ¬ GetsIpv4Verdict (mappedLiteral metadataEndpoint) (.httpRedirect 1)
          metadataEndpoint) ∧
      (wasm.accepts (mappedLiteral metadataEndpoint)
          "https://[::ffff:169.254.169.254]/" ∧
        ¬ GetsIpv4Verdict (mappedLiteral metadataEndpoint) .wasm metadataEndpoint) := by
  have hfails : ∀ filter : Filter, filter.refuses (.v4 metadataEndpoint) = true →
      filter.refuses (.v6 metadataEndpoint.toIpv6Mapped) = false →
      ¬ GetsIpv4Verdict (mappedLiteral metadataEndpoint) filter metadataEndpoint := by
    intro filter hrefused hpasses h
    rw [(h hrefused).1] at hpasses
    cases hpasses
  refine ⟨⟨by decide +kernel, hfails _ ?_ ?_⟩, ⟨by decide +kernel, hfails _ ?_ ?_⟩,
    by decide +kernel, hfails _ ?_ ?_⟩
  all_goals decide +kernel

end Axinite.Net
