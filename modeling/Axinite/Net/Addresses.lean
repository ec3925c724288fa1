import Mathlib.Tactic.Common

/-!
# Address filters of outbound requests

Five components connect to addresses that a model or a remote party has chosen, and each of
them screens the address with a filter of its own.  The filters differ in the ranges they
list.  They also differ in what they do with an IPv4-mapped IPv6 address, `::ffff:a.b.c.d`,
which reaches the same host as `a.b.c.d`: three of them give it the verdict of the IPv4
address, the other two look at it as at any IPv6 address.

Main results:

- Theorem `toIpv4Mapped_toIpv6Mapped`: the mapped form of an address is mapped back to it.
- Theorem `refuses_mapped_of_unmaps`: the filters that unmap give the IPv4 verdict.
- Theorem `refuses_mapped_of_not_unmaps`: the other filters refuse no mapped address at all.
-/

namespace Axinite.Net

/-! ## Addresses -/

/-- An IPv4 address by its octets. -/
structure Ipv4Addr where
  o0 : UInt8
  o1 : UInt8
  o2 : UInt8
  o3 : UInt8
  deriving DecidableEq, Repr

/-- An IPv6 address by its segments. -/
structure Ipv6Addr where
  s0 : UInt16
  s1 : UInt16
  s2 : UInt16
  s3 : UInt16
  s4 : UInt16
  s5 : UInt16
  s6 : UInt16
  s7 : UInt16
  deriving DecidableEq, Repr

/-- An address of either family. -/
inductive IpAddr where
  | v4 (ip : Ipv4Addr)
  | v6 (ip : Ipv6Addr)
  deriving DecidableEq, Repr

/-- The segment with this high and this low octet. -/
def fromBeBytes (high low : UInt8) : UInt16 :=
  high.toUInt16 * 256 + low.toUInt16

/-- The high octet of a segment. -/
def highByte (segment : UInt16) : UInt8 :=
  (segment >>> 8).toUInt8

/-- The low octet of a segment. -/
def lowByte (segment : UInt16) : UInt8 :=
  segment.toUInt8

@[simp]
theorem highByte_fromBeBytes (high low : UInt8) : highByte (fromBeBytes high low) = high := by
  apply UInt8.toNat_inj.1
  have hhigh := high.toNat_lt
  have hlow := low.toNat_lt
  simp only [highByte, fromBeBytes, UInt16.toNat_toUInt8, UInt16.toNat_shiftRight,
    UInt16.toNat_add, UInt16.toNat_mul, UInt8.toNat_toUInt16, UInt16.toNat_ofNat,
    Nat.reduceMod, Nat.reducePow]
  omega

@[simp]
theorem lowByte_fromBeBytes (high low : UInt8) : lowByte (fromBeBytes high low) = low := by
  apply UInt8.toNat_inj.1
  have hlow := low.toNat_lt
  simp only [lowByte, fromBeBytes, UInt16.toNat_toUInt8, UInt16.toNat_add, UInt16.toNat_mul,
    UInt8.toNat_toUInt16, UInt16.toNat_ofNat]
  omega

namespace Ipv4Addr

/-- 10.0.0.0/8, 172.16.0.0/12 and 192.168.0.0/16. -/
def isPrivate (ip : Ipv4Addr) : Bool :=
  ip.o0 == 10 || (ip.o0 == 172 && 16 ≤ ip.o1 && ip.o1 ≤ 31) || (ip.o0 == 192 && ip.o1 == 168)

/-- 127.0.0.0/8. -/
def isLoopback (ip : Ipv4Addr) : Bool :=
  ip.o0 == 127

/-- 169.254.0.0/16. -/
def isLinkLocal (ip : Ipv4Addr) : Bool :=
  ip.o0 == 169 && ip.o1 == 254

/-- 224.0.0.0/4. -/
def isMulticast (ip : Ipv4Addr) : Bool :=
  224 ≤ ip.o0 && ip.o0 ≤ 239

/-- 0.0.0.0. -/
def isUnspecified (ip : Ipv4Addr) : Bool :=
  ip == ⟨0, 0, 0, 0⟩

/-- 255.255.255.255. -/
def isBroadcast (ip : Ipv4Addr) : Bool :=
  ip == ⟨255, 255, 255, 255⟩

/-- 192.0.2.0/24, 198.51.100.0/24 and 203.0.113.0/24. -/
def isDocumentation (ip : Ipv4Addr) : Bool :=
  (ip.o0 == 192 && ip.o1 == 0 && ip.o2 == 2) || (ip.o0 == 198 && ip.o1 == 51 && ip.o2 == 100) ||
    (ip.o0 == 203 && ip.o1 == 0 && ip.o2 == 113)

/-- The IPv4-mapped IPv6 address `::ffff:a.b.c.d`. -/
def toIpv6Mapped (ip : Ipv4Addr) : Ipv6Addr :=
  ⟨0, 0, 0, 0, 0, 0xffff, fromBeBytes ip.o0 ip.o1, fromBeBytes ip.o2 ip.o3⟩

end Ipv4Addr

namespace Ipv6Addr

/-- The address `::1`. -/
def isLoopback (ip : Ipv6Addr) : Bool :=
  ip == ⟨0, 0, 0, 0, 0, 0, 0, 1⟩

/-- The address `::`. -/
def isUnspecified (ip : Ipv6Addr) : Bool :=
  ip == ⟨0, 0, 0, 0, 0, 0, 0, 0⟩

/-- The range fc00::/7. -/
def isUniqueLocal (ip : Ipv6Addr) : Bool :=
  ip.s0 &&& 0xfe00 == 0xfc00

/-- The range fe80::/10. -/
def isUnicastLinkLocal (ip : Ipv6Addr) : Bool :=
  ip.s0 &&& 0xffc0 == 0xfe80

/-- The range ff00::/8. -/
def isMulticast (ip : Ipv6Addr) : Bool :=
  ip.s0 &&& 0xff00 == 0xff00

/-- The IPv4 address of an IPv4-mapped address. -/
def toIpv4Mapped (ip : Ipv6Addr) : Option Ipv4Addr :=
  if ip.s0 = 0 ∧ ip.s1 = 0 ∧ ip.s2 = 0 ∧ ip.s3 = 0 ∧ ip.s4 = 0 ∧ ip.s5 = 0xffff then
    some ⟨highByte ip.s6, lowByte ip.s6, highByte ip.s7, lowByte ip.s7⟩
  else none

end Ipv6Addr

open Ipv4Addr Ipv6Addr

variable (ip : Ipv4Addr)

/-- The mapped form of an address is mapped back to it. -/
@[simp]
theorem toIpv4Mapped_toIpv6Mapped : ip.toIpv6Mapped.toIpv4Mapped = some ip := by
  simp [toIpv4Mapped, toIpv6Mapped]

/-- A mapped address lies in none of the special IPv6 ranges. -/
theorem toIpv6Mapped_ordinary :
    ip.toIpv6Mapped.isLoopback = false ∧ ip.toIpv6Mapped.isUnspecified = false ∧
      ip.toIpv6Mapped.isUniqueLocal = false ∧ ip.toIpv6Mapped.isUnicastLinkLocal = false ∧
      ip.toIpv6Mapped.isMulticast = false := by
  refine ⟨?_, ?_, ?_, ?_, ?_⟩
  · simp [Ipv6Addr.isLoopback, toIpv6Mapped]
  · simp [Ipv6Addr.isUnspecified, toIpv6Mapped]
  · simp [isUniqueLocal, toIpv6Mapped]
  · simp [isUnicastLinkLocal, toIpv6Mapped]
  · simp [Ipv6Addr.isMulticast, toIpv6Mapped]

/-- The carrier-grade NAT range 100.64.0.0/10. -/
def isCgnatIpv4 (ip : Ipv4Addr) : Bool :=
  ip.o0 == 100 && ip.o1 &&& 0xC0 == 64

/-! ## The HTTP tool -/

namespace Http

/-- Instance metadata endpoint of the cloud providers. -/
def metadataEndpoint : Ipv4Addr :=
  ⟨169, 254, 169, 254⟩

def isDisallowedIpv4 (ip : Ipv4Addr) : Bool :=
  [ip.isPrivate, ip.isLoopback, ip.isLinkLocal, ip.isMulticast, ip.isUnspecified,
    ip == metadataEndpoint].any id

def isDisallowedIpv6 (ip : Ipv6Addr) : Bool :=
  [ip.isLoopback, ip.isUniqueLocal, ip.isUnicastLinkLocal, ip.isMulticast,
    ip.isUnspecified].any id

/-- The HTTP tool must not fetch from this address. -/
def isDisallowedIp : IpAddr → Bool
  | .v4 ip => isDisallowedIpv4 ip
  | .v6 ip => isDisallowedIpv6 ip

theorem isDisallowedIp_mapped : isDisallowedIp (.v6 ip.toIpv6Mapped) = false := by
  obtain ⟨hloopback, hunspecified, hunique, hlink, hmulticast⟩ := toIpv6Mapped_ordinary ip
  simp [isDisallowedIp, isDisallowedIpv6, hloopback, hunspecified, hunique, hlink, hmulticast]

end Http

/-! ## The HTTP wrapper of WASM tools -/

namespace Wasm

def isPrivateIpv4 (ip : Ipv4Addr) : Bool :=
  if ip.isLoopback || ip.isPrivate then true
  else if ip.isLinkLocal || ip.isUnspecified then true
  else isCgnatIpv4 ip

def isPrivateIpv6 (ip : Ipv6Addr) : Bool :=
  if ip.isLoopback || ip.isUnspecified then true
  else ip.s0 &&& 0xfe00 == 0xfc00 || ip.s0 &&& 0xffc0 == 0xfe80

/-- A WASM tool must not connect to this address. -/
def isPrivateIp : IpAddr → Bool
  | .v4 ip => isPrivateIpv4 ip
  | .v6 ip => isPrivateIpv6 ip

theorem isPrivateIp_mapped : isPrivateIp (.v6 ip.toIpv6Mapped) = false := by
  obtain ⟨hloopback, hunspecified, hunique, hlink, -⟩ := toIpv6Mapped_ordinary ip
  have hranges : isPrivateIpv6 ip.toIpv6Mapped =
      (ip.toIpv6Mapped.isUniqueLocal || ip.toIpv6Mapped.isUnicastLinkLocal) := by
    simp [isPrivateIpv6, hloopback, hunspecified, isUniqueLocal, isUnicastLinkLocal]
  rw [isPrivateIp, hranges, hunique, hlink]
  rfl

end Wasm

/-! ## Fetching skills -/

namespace SkillFetch

/-- Replace a mapped address by the IPv4 address it stands for. -/
def normalizeIp : IpAddr → IpAddr
  | .v6 ip => (ip.toIpv4Mapped.map IpAddr.v4).getD (.v6 ip)
  | .v4 ip => .v4 ip

def isPrivateIp : IpAddr → Bool
  | .v4 ip => ip.isPrivate
  | .v6 ip => ip.s0 &&& 0xfe00 == 0xfc00

def isLinkLocalIp : IpAddr → Bool
  | .v4 ip => ip.isLinkLocal
  | .v6 ip => ip.s0 &&& 0xffc0 == 0xfe80

def isLoopback : IpAddr → Bool
  | .v4 ip => ip.isLoopback
  | .v6 ip => ip.isLoopback

def isUnspecified : IpAddr → Bool
  | .v4 ip => ip.isUnspecified
  | .v6 ip => ip.isUnspecified

/-- A skill must not be fetched from this address. -/
def isNonRoutableIp (ip : IpAddr) : Bool :=
  isLoopback ip || isUnspecified ip || isPrivateIp ip || isLinkLocalIp ip

theorem normalizeIp_mapped : normalizeIp (.v6 ip.toIpv6Mapped) = .v4 ip := by
  simp [normalizeIp]

end SkillFetch

/-! ## Webhooks -/

namespace Webhook

def isNonpublicIpv4Class (ip : Ipv4Addr) : Bool :=
  let internal := ip.isPrivate || ip.isLoopback
  let local' := ip.isLinkLocal || ip.isUnspecified
  let special := ip.isBroadcast || ip.isDocumentation
  let scope := internal || local'
  let reserved := special || ip.isMulticast
  scope || reserved

def isForbiddenIpv4 (ip : Ipv4Addr) : Bool :=
  if isNonpublicIpv4Class ip then true
  else if ip.o0 == 100 && 64 ≤ ip.o1 && ip.o1 ≤ 127 then true
  else if ip.o0 == 198 && (ip.o1 == 18 || ip.o1 == 19) then true
  else false

def isLinkOrMulticastIpv6 (ip : Ipv6Addr) : Bool :=
  ip.isUniqueLocal || ip.isUnicastLinkLocal || ip.isMulticast

def isLocalScopeIpv6 (ip : Ipv6Addr) : Bool :=
  ip.isLoopback || ip.isUnspecified || isLinkOrMulticastIpv6 ip

/-- The hooks have their own version of the conversion of the standard library. -/
def ipv6MappedIpv4 (ip : Ipv6Addr) : Option Ipv4Addr :=
  if [ip.s0, ip.s1, ip.s2, ip.s3, ip.s4] = [0, 0, 0, 0, 0] ∧ ip.s5 = 0xffff then
    some ⟨highByte ip.s6, lowByte ip.s6, highByte ip.s7, lowByte ip.s7⟩
  else none

/-- A webhook must not be delivered to this address. -/
def isForbiddenIp : IpAddr → Bool
  | .v4 ip => isForbiddenIpv4 ip
  | .v6 ip =>
    match ipv6MappedIpv4 ip with
    | some mapped => isForbiddenIpv4 mapped
    | none =>
      if isLocalScopeIpv6 ip then true
      else ip.s0 == 0x2001 && ip.s1 == 0x0db8

theorem isForbiddenIp_mapped : isForbiddenIp (.v6 ip.toIpv6Mapped) = isForbiddenIp (.v4 ip) := by
  have hmapped : ipv6MappedIpv4 ip.toIpv6Mapped = some ip := by
    simp [ipv6MappedIpv4, toIpv6Mapped]
  simp [isForbiddenIp, hmapped]

end Webhook

/-! ## Authorization of MCP servers -/

namespace McpAuth

def isDangerousIpv4 (ip : Ipv4Addr) : Bool :=
  if ip.isLoopback || ip.isPrivate then true
  else if ip.isLinkLocal || ip.isBroadcast then true
  else ip.isUnspecified || isCgnatIpv4 ip

def isReservedIpv6Block (ip : Ipv6Addr) : Bool :=
  if ip.s0 &&& 0xffc0 == 0xfe80 || ip.s0 &&& 0xffc0 == 0xfec0 then true
  else if ip.s0 &&& 0xfe00 == 0xfc00 then true
  else ip.s0 == 0x2001 && ip.s1 == 0x0db8

def isDangerousIpv6 (ip : Ipv6Addr) : Bool :=
  if ip.isLoopback || ip.isUnspecified then true
  else if isReservedIpv6Block ip then true
  else ip.toIpv4Mapped.any isDangerousIpv4

/-- The server side must not connect to this address. -/
def isDangerousIp : IpAddr → Bool
  | .v4 ip => isDangerousIpv4 ip
  | .v6 ip => isDangerousIpv6 ip

theorem isDangerousIp_mapped : isDangerousIp (.v6 ip.toIpv6Mapped) = isDangerousIp (.v4 ip) := by
  obtain ⟨hloopback, hunspecified, -⟩ := toIpv6Mapped_ordinary ip
  have hblock : isReservedIpv6Block ip.toIpv6Mapped = false := by
    simp [isReservedIpv6Block, toIpv6Mapped]
  simp [isDangerousIp, isDangerousIpv6, hloopback, hunspecified, hblock]

end McpAuth

/-! ## The filters together -/

/-- The components that screen outbound connections; the HTTP tool also screens the targets
of redirects, with the number of requests before the redirect. -/
inductive Filter where
  | http
  | httpRedirect (previous : Nat)
  | wasm
  | skillFetch
  | webhook
  | mcpAuth
  deriving DecidableEq, Repr

namespace Filter

def refuses : Filter → IpAddr → Bool
  | http, ip => Http.isDisallowedIp ip
  | httpRedirect _, ip => Http.isDisallowedIp ip
  | wasm, ip => Wasm.isPrivateIp ip
  | skillFetch, ip => SkillFetch.isNonRoutableIp (SkillFetch.normalizeIp ip)
  | webhook, ip => Webhook.isForbiddenIp ip
  | mcpAuth, ip => McpAuth.isDangerousIp ip

/-- The filter looks through the mapped form of an IPv4 address. -/
def Unmaps (filter : Filter) : Prop :=
  filter = skillFetch ∨ filter = webhook ∨ filter = mcpAuth

instance (filter : Filter) : Decidable filter.Unmaps :=
  inferInstanceAs (Decidable (_ ∨ _ ∨ _))

/-- A filter that unmaps gives a mapped address the verdict of the IPv4 address. -/
theorem refuses_mapped_of_unmaps {filter : Filter} (h : filter.Unmaps) (ip : Ipv4Addr) :
    filter.refuses (.v6 ip.toIpv6Mapped) = filter.refuses (.v4 ip) := by
  rcases h with rfl | rfl | rfl
  · simp only [refuses, SkillFetch.normalizeIp_mapped]
    rfl
  · exact Webhook.isForbiddenIp_mapped ip
  · exact McpAuth.isDangerousIp_mapped ip

/-- A filter that does not unmap lets every mapped address pass. -/
theorem refuses_mapped_of_not_unmaps {filter : Filter} (h : ¬ filter.Unmaps) (ip : Ipv4Addr) :
    filter.refuses (.v6 ip.toIpv6Mapped) = false := by
  cases filter with
  | http | httpRedirect _ => exact Http.isDisallowedIp_mapped ip
  | wasm => exact Wasm.isPrivateIp_mapped ip
  | skillFetch => exact absurd (.inl rfl) h
  | webhook => exact absurd (.inr (.inl rfl)) h
  | mcpAuth => exact absurd (.inr (.inr rfl)) h

end Filter

end Axinite.Net
