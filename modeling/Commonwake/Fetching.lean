import Commonwake.IpAddress
import Commonwake.SampleNode

/-!
# Where the collector connects

Before the collector fetches a feed it checks the address in the URL, resolves
a host name, checks every address which the name resolves to, and pins the
client to these addresses.
-/

namespace Commonwake

open Outcome IpAddress

/-! ## Hosts -/

inductive IpAddr
  | v4 (ip : Ipv4Addr)
  | v6 (ip : Ipv6Addr)
  deriving DecidableEq

inductive Host
  | domain (name : String)
  | ipv4 (ip : Ipv4Addr)
  | ipv6 (ip : Ipv6Addr)
  deriving DecidableEq

/-- What the checks of hosts read of a parsed URL; the port is the known one of
the scheme when the URL has none. -/
structure HostUrl where
  scheme : String
  host : Option Host
  username : String
  password : Option String
  port : Option ℕ

/-- `to_ascii_lowercase`. -/
def toAsciiLowercase (text : String) : String :=
  TextBytes.ofChars ((chars text).map asciiLower)

/-! ## Non-public addresses -/

def isNonPublicV4 (ip : Ipv4Addr) : Bool :=
  let a := ip.octet 0
  let b := ip.octet 1
  ip.isPrivate || ip.isLoopback || ip.isLinkLocal || ip.isBroadcast || ip.isDocumentation ||
    ip.isUnspecified || ip.isMulticast || a == 0 || (a == 100 && 64 ≤ b && b ≤ 127) ||
    (a == 192 && b == 0) || (a == 198 && 18 ≤ b && b ≤ 19) || 240 ≤ a

def isNonPublicV6Special (ip : Ipv6Addr) : Bool :=
  -- Site-local, documentation and benchmarking, 6to4, and NAT64.
  ip.segment 0 &&& 0xffc0 == 0xfec0 ||
    (ip.segment 0 == 0x2001 && (ip.segment 1 == 0x0002 || ip.segment 1 == 0x0db8)) ||
    ip.segment 0 == 0x2002 ||
    (ip.segment 0 == 0x0064 && ip.segment 1 == 0xff9b &&
      [2, 3, 4, 5].all fun index => ip.segment index == 0)

def isDisallowed : IpAddr → Bool
  | .v4 ip => isNonPublicV4 ip
  | .v6 ip =>
      match ip.toIpv4 with
      | some inner => isNonPublicV4 inner
      | none => ip.isLoopback || ip.isUnspecified || ip.isUniqueLocal ||
          ip.isUnicastLinkLocal || ip.isMulticast || isNonPublicV6Special ip

def rejectPrivateIp (address : IpAddr) : Result Unit :=
  rejectIf (isDisallowed address = true)
    (.validation "feed URL targets a non-public IP address")

/-! ## Fetching -/

def validateFetchUrl (url : HostUrl) : Result Unit := do
  rejectIf (url.scheme ≠ "http" ∧ url.scheme ≠ "https")
    (.validation "feed fetch only permits HTTP and HTTPS")
  let host ← okOr url.host (.validation "feed URL has no host")
  match host with
  | .domain name =>
      let name := toAsciiLowercase name
      rejectIf (name = "localhost" ∨ name = "localhost.localdomain" ∨
          endsWith name ".local" = true ∨ endsWith name ".internal" = true)
        (.validation "feed URL targets a local hostname")
  | .ipv4 ip => rejectPrivateIp (.v4 ip)
  | .ipv6 ip => rejectPrivateIp (.v6 ip)

/-- How a client is built: whether it follows redirects and uses a proxy, and
the addresses which stand for a host name. -/
structure FeedClient where
  followsRedirects : Bool
  usesProxy : Bool
  resolved : Option (String × List IpAddr)

section

variable (parse : String → Option HostUrl)
  (lookupHost : String → ℕ → Except String (List IpAddr))

def resolveHost (name : String) (port : ℕ) : Result (List IpAddr) :=
  match lookupHost name port with
  | .ok addresses => .ok addresses
  | .error error => .error (.validation s!"feed hostname resolution failed: {error}")

def feedClient (url : HostUrl) : Result FeedClient := do
  let host ← okOr url.host (.validation "feed URL has no host")
  match host with
  | .domain name => do
      let port ← okOr url.port (.validation "feed URL has no resolvable port")
      let addresses ← resolveHost lookupHost name port
      rejectIf (addresses = []) (.validation "feed hostname resolved to no addresses")
      forEach rejectPrivateIp addresses
      pure ⟨false, false, some (name, addresses)⟩
  | .ipv4 _ | .ipv6 _ => pure ⟨false, false, none⟩

/-- What `ingest_source` does before it sends its one request. -/
def feedRequest (feedUrl : String) : Result (FeedClient × HostUrl) := do
  let url ← okOr (parse feedUrl) (.validation "stored feed URL is invalid")
  validateFetchUrl url
  let client ← feedClient lookupHost url
  pure (client, url)

end

/-! ## What is rejected -/

/-- An address by its four octets. -/
def v4Network (a b c d : ℕ) : ℕ := ((a * 256 + b) * 256 + c) * 256 + d

def nonPublicV4 : List (Block 32) := [
  ⟨v4Network 0 0 0 0, 8⟩, ⟨v4Network 10 0 0 0, 8⟩, ⟨v4Network 100 64 0 0, 10⟩,
  ⟨v4Network 127 0 0 0, 8⟩, ⟨v4Network 169 254 0 0, 16⟩, ⟨v4Network 172 16 0 0, 12⟩,
  ⟨v4Network 192 0 0 0, 16⟩, ⟨v4Network 192 168 0 0, 16⟩, ⟨v4Network 198 18 0 0, 15⟩,
  ⟨v4Network 192 0 2 0, 24⟩, ⟨v4Network 198 51 100 0, 24⟩, ⟨v4Network 203 0 113 0, 24⟩,
  ⟨v4Network 224 0 0 0, 4⟩, ⟨v4Network 240 0 0 0, 4⟩]

/-- Loopback, unspecified, unique-local, link-local, site-local, multicast,
documentation and benchmarking. -/
def nonPublicV6 : List (Block 128) := [
  ⟨1, 128⟩, ⟨0, 128⟩, ⟨0xfc00 * 2 ^ 112, 7⟩, ⟨0xfe80 * 2 ^ 112, 10⟩,
  ⟨0xfec0 * 2 ^ 112, 10⟩, ⟨0xff00 * 2 ^ 112, 8⟩, ⟨0x20010db8 * 2 ^ 96, 32⟩,
  ⟨0x200100020000 * 2 ^ 80, 48⟩]

theorem isNonPublicV4_of_contains {ip : Ipv4Addr} {block : Block 32} (hmem : block ∈ nonPublicV4)
    (h : block.Contains ip.value) : isNonPublicV4 ip = true := by
  have hbound := ip.bound
  have hzero : ip.octet 0 = ip.value / 16777216 % 256 := rfl
  have hone : ip.octet 1 = ip.value / 65536 % 256 := rfl
  have htwo : ip.octet 2 = ip.value / 256 % 256 := rfl
  simp only [nonPublicV4, v4Network, List.mem_cons, List.not_mem_nil, or_false] at hmem
  rcases hmem with rfl | rfl | rfl | rfl | rfl | rfl | rfl | rfl | rfl | rfl | rfl | rfl | rfl |
    rfl <;> norm_num [Block.Contains] at h hbound
  · have ha : ip.octet 0 = 0 := by omega
    simp [isNonPublicV4, ha]
  · have ha : ip.octet 0 = 10 := by omega
    simp [isNonPublicV4, Ipv4Addr.isPrivate, ha]
  · have ha : ip.octet 0 = 100 := by omega
    have hb : 64 ≤ ip.octet 1 ∧ ip.octet 1 ≤ 127 := by omega
    simp [isNonPublicV4, ha, hb]
  · have ha : ip.octet 0 = 127 := by omega
    simp [isNonPublicV4, Ipv4Addr.isLoopback, ha]
  · have ha : ip.octet 0 = 169 := by omega
    have hb : ip.octet 1 = 254 := by omega
    simp [isNonPublicV4, Ipv4Addr.isLinkLocal, ha, hb]
  · have ha : ip.octet 0 = 172 := by omega
    have hb : 16 ≤ ip.octet 1 ∧ ip.octet 1 ≤ 31 := by omega
    simp [isNonPublicV4, Ipv4Addr.isPrivate, ha, hb]
  · have ha : ip.octet 0 = 192 := by omega
    have hb : ip.octet 1 = 0 := by omega
    simp [isNonPublicV4, ha, hb]
  · have ha : ip.octet 0 = 192 := by omega
    have hb : ip.octet 1 = 168 := by omega
    simp [isNonPublicV4, Ipv4Addr.isPrivate, ha, hb]
  · have ha : ip.octet 0 = 198 := by omega
    have hb : 18 ≤ ip.octet 1 ∧ ip.octet 1 ≤ 19 := by omega
    simp [isNonPublicV4, ha, hb]
  · have ha : ip.octet 0 = 192 := by omega
    have hb : ip.octet 1 = 0 := by omega
    simp [isNonPublicV4, ha, hb]
  · have ha : ip.octet 0 = 198 := by omega
    have hb : ip.octet 1 = 51 := by omega
    have hc : ip.octet 2 = 100 := by omega
    simp [isNonPublicV4, Ipv4Addr.isDocumentation, ha, hb, hc]
  · have ha : ip.octet 0 = 203 := by omega
    have hb : ip.octet 1 = 0 := by omega
    have hc : ip.octet 2 = 113 := by omega
    simp [isNonPublicV4, Ipv4Addr.isDocumentation, ha, hb, hc]
  · have ha : 224 ≤ ip.octet 0 ∧ ip.octet 0 ≤ 239 := by omega
    simp [isNonPublicV4, Ipv4Addr.isMulticast, ha]
  · have ha : 240 ≤ ip.octet 0 := by omega
    simp [isNonPublicV4, ha]

/-- An address which embeds one of 32 bits is judged by it, or rejected. -/
theorem isDisallowed_of_embeds {ip : Ipv6Addr} {form : Ipv6Addr.Embedding} {inner : Ipv4Addr}
    (h : ip.Embeds form inner) (hinner : isNonPublicV4 inner = true) :
    isDisallowed (.v6 ip) = true := by
  have hbound := ip.bound
  have hsome : form = .mapped ∨ form = .compatible → isDisallowed (.v6 ip) = true := by
    intro hform
    simp only [isDisallowed, Ipv6Addr.toIpv4_eq_some_of_embeds hform h, hinner]
  obtain ⟨hblock, -⟩ := h
  cases form with
  | mapped => exact hsome (.inl rfl)
  | compatible => exact hsome (.inr rfl)
  | sixToFour =>
      norm_num [Ipv6Addr.Embedding.block, Block.Contains] at hblock
      have hzero : ip.segment 0 = 0x2002 := by
        norm_num [Ipv6Addr.segment]
        omega
      have hnone : ip.toIpv4 = none := by
        simp [Ipv6Addr.toIpv4, hzero]
      simp [isDisallowed, hnone, isNonPublicV6Special, hzero]
  | nat64 =>
      norm_num [Ipv6Addr.Embedding.block, Block.Contains] at hblock
      have hzero : ip.segment 0 = 0x0064 := by
        norm_num [Ipv6Addr.segment]
        omega
      have hone : ip.segment 1 = 0xff9b := by
        norm_num [Ipv6Addr.segment]
        omega
      have hmiddle : ∀ index ∈ [2, 3, 4, 5], ip.segment index = 0 := by
        intro index hindex
        simp only [List.mem_cons, List.not_mem_nil, or_false] at hindex
        rcases hindex with rfl | rfl | rfl | rfl <;> norm_num [Ipv6Addr.segment] <;> omega
      have hnone : ip.toIpv4 = none := by
        simp [Ipv6Addr.toIpv4, hzero]
      have hall : ([2, 3, 4, 5].all fun index => ip.segment index == 0) = true := by
        rw [List.all_eq_true]
        intro index hindex
        rw [beq_iff_eq]
        exact hmiddle index hindex
      have hspecial : isNonPublicV6Special ip = true := by
        rw [isNonPublicV6Special, hzero, hone, hall]
        rfl
      simp [isDisallowed, hnone, hspecial]

theorem isDisallowed_of_contains {ip : Ipv6Addr} {block : Block 128} (hmem : block ∈ nonPublicV6)
    (h : block.Contains ip.value) : isDisallowed (.v6 ip) = true := by
  have hbound := ip.bound
  have hzero : ip.segment 0 = ip.value / 2 ^ 112 % 65536 := by norm_num [Ipv6Addr.segment]
  have hone : ip.segment 1 = ip.value / 2 ^ 96 % 65536 := by norm_num [Ipv6Addr.segment]
  have hlow : ∀ value, value < 2 ^ 32 → ip.value = value →
      ip.Embeds .compatible ⟨value % 2 ^ 32, Nat.mod_lt _ (by decide)⟩ := by
    intro value hvalue hsame
    norm_num [Ipv6Addr.Embeds, Ipv6Addr.Embedding.block, Block.Contains, hsame] at hvalue ⊢
    omega
  have hpublic : ip.segment 0 ≠ 0 → ip.toIpv4 = none := by
    intro hne
    simp [Ipv6Addr.toIpv4, hne]
  simp only [nonPublicV6, List.mem_cons, List.not_mem_nil, or_false] at hmem
  rcases hmem with rfl | rfl | rfl | rfl | rfl | rfl | rfl | rfl <;>
    norm_num [Block.Contains] at h hbound hzero hone
  · exact isDisallowed_of_embeds (hlow 1 (by decide) h) (by decide)
  · exact isDisallowed_of_embeds (hlow 0 (by decide) h) (by decide)
  · have hlocal : ip.isUniqueLocal = true := by
      rw [Ipv6Addr.isUniqueLocal_iff]
      omega
    simp [isDisallowed, hpublic (by omega), hlocal]
  · have hlocal : ip.isUnicastLinkLocal = true := by
      rw [Ipv6Addr.isUnicastLinkLocal_iff]
      omega
    simp [isDisallowed, hpublic (by omega), hlocal]
  · have hmask := land_leading (show 6 ≤ 16 by decide) (ip.segment_lt 0)
    have hsite : ip.segment 0 &&& 0xffc0 = 0xfec0 := by
      norm_num at hmask
      omega
    simp [isDisallowed, hpublic (by omega), isNonPublicV6Special, hsite]
  · have hmulticast : ip.isMulticast = true := by
      rw [Ipv6Addr.isMulticast_iff]
      omega
    simp [isDisallowed, hpublic (by omega), hmulticast]
  · have hfirst : ip.segment 0 = 0x2001 := by omega
    have hsecond : ip.segment 1 = 0x0db8 := by omega
    simp [isDisallowed, hpublic (by omega), isNonPublicV6Special, hfirst, hsecond]
  · have hfirst : ip.segment 0 = 0x2001 := by omega
    have hsecond : ip.segment 1 = 0x0002 := by omega
    simp [isDisallowed, hpublic (by omega), isNonPublicV6Special, hfirst, hsecond]

theorem rejectPrivateIp_eq_error {address : IpAddr} (h : isDisallowed address = true) :
    rejectPrivateIp address = .error (.validation "feed URL targets a non-public IP address") :=
  rejectIf_of h

/-! ## Connections -/

/-- What the program relies on of an HTTP client which follows no redirect and
uses no proxy: it connects to the address in the URL, or to those which it was
given for the host name. -/
structure ConnectsAsBuilt (connects : FeedClient → HostUrl → IpAddr → Prop) : Prop where
  ipv4 : ∀ client url ip address, client.followsRedirects = false → client.usesProxy = false →
    url.host = some (.ipv4 ip) → connects client url address → address = .v4 ip
  ipv6 : ∀ client url ip address, client.followsRedirects = false → client.usesProxy = false →
    url.host = some (.ipv6 ip) → connects client url address → address = .v6 ip
  domain : ∀ client url name addresses address, client.followsRedirects = false →
    client.usesProxy = false → url.host = some (.domain name) →
    client.resolved = some (name, addresses) → connects client url address →
    address ∈ addresses

section

variable {parse : String → Option HostUrl}
  {lookupHost : String → ℕ → Except String (List IpAddr)}

/-- The client of a request follows no redirect, uses no proxy, and is pinned to
checked addresses. -/
theorem feedClient_eq_ok {url : HostUrl} {client : FeedClient}
    (h : feedClient lookupHost url = .ok client) :
    client.followsRedirects = false ∧ client.usesProxy = false ∧
      ∀ name, url.host = some (.domain name) → ∃ addresses,
        client.resolved = some (name, addresses) ∧
        ∀ address ∈ addresses, rejectPrivateIp address = .ok () := by
  unfold feedClient at h
  obtain ⟨host, hhost, h⟩ := bind_eq_ok.mp h
  rw [okOr_eq_ok] at hhost
  cases host with
  | domain name =>
      simp only [bind_eq_ok, forEach_eq_ok, pure_eq_ok, Except.ok.injEq] at h
      obtain ⟨port, -, addresses, -, ⟨⟩, -, ⟨⟩, hpublic, rfl⟩ := h
      refine ⟨rfl, rfl, ?_⟩
      intro other hother
      rw [hhost, Option.some.injEq, Host.domain.injEq] at hother
      rw [← hother]
      exact ⟨addresses, rfl, hpublic⟩
  | ipv4 ip | ipv6 ip =>
      simp only [pure_eq_ok, Except.ok.injEq] at h
      rw [← h]
      refine ⟨rfl, rfl, ?_⟩
      intro name hname
      rw [hhost] at hname
      cases hname

theorem feedRequest_public {connects : FeedClient → HostUrl → IpAddr → Prop}
    (hconnects : ConnectsAsBuilt connects) {feedUrl : String} {client : FeedClient}
    {url : HostUrl} (h : feedRequest parse lookupHost feedUrl = .ok (client, url))
    {address : IpAddr} (haddress : connects client url address) :
    rejectPrivateIp address = .ok () := by
  simp only [feedRequest, bind_eq_ok, okOr_eq_ok, pure_eq_ok, Except.ok.injEq,
    Prod.mk.injEq] at h
  obtain ⟨_, -, ⟨⟩, hvalid, _, hclient, rfl, rfl⟩ := h
  obtain ⟨hredirects, hproxy, hresolved⟩ := feedClient_eq_ok hclient
  unfold validateFetchUrl at hvalid
  simp only [bind_eq_ok, okOr_eq_ok] at hvalid
  obtain ⟨⟨⟩, -, host, hhost, hvalid⟩ := hvalid
  cases host with
  | domain name =>
      obtain ⟨addresses, hpinned, hpublic⟩ := hresolved name hhost
      exact hpublic address
        (hconnects.domain _ _ name addresses address hredirects hproxy hhost hpinned haddress)
  | ipv4 ip =>
      rw [hconnects.ipv4 _ _ ip address hredirects hproxy hhost haddress]
      exact hvalid
  | ipv6 ip =>
      rw [hconnects.ipv6 _ _ ip address hredirects hproxy hhost haddress]
      exact hvalid

end

namespace Sample

/-- A client which connects as it was built. -/
def connects (client : FeedClient) (url : HostUrl) (address : IpAddr) : Prop :=
  match url.host with
  | some (.ipv4 ip) => address = .v4 ip
  | some (.ipv6 ip) => address = .v6 ip
  | some (.domain name) => ∃ addresses, client.resolved = some (name, addresses) ∧
      address ∈ addresses
  | none => False

theorem connects_asBuilt : ConnectsAsBuilt connects := by
  refine ⟨?_, ?_, ?_⟩
  · intro client url ip address _ _ hhost haddress
    rw [connects, hhost] at haddress
    exact haddress
  · intro client url ip address _ _ hhost haddress
    rw [connects, hhost] at haddress
    exact haddress
  · intro client url name addresses address _ _ hhost hresolved haddress
    rw [connects, hhost] at haddress
    obtain ⟨others, hothers, hmem⟩ := haddress
    rw [hresolved, Option.some.injEq, Prod.mk.injEq] at hothers
    rw [hothers.2]
    exact hmem

/-- The name of the feed, whatever the URL. -/
def parseFeed (_ : String) : Option HostUrl := some ⟨"https", some (.domain "a"), "", none, some 443⟩

def publicAddress : Ipv4Addr := ⟨v4Network 93 184 216 34, by decide⟩

def resolveFeed (_ : String) (_ : ℕ) : Except String (List IpAddr) := .ok [.v4 publicAddress]

end Sample

end Commonwake
