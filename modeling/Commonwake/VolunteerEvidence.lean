import Commonwake.Fetching

/-!
# Hosts of volunteer evidence

A volunteer names evidence by a URL, which must not lead to the inside of a
network.  The check of the host uses the predicates of the standard library, and
looks at an address of 128 bits through the one of 32 bits which it embeds.
-/

namespace Commonwake

open Outcome IpAddress

def publicIpv4 (ip : Ipv4Addr) : Bool :=
  !ip.isPrivate && !ip.isLoopback && !ip.isLinkLocal && !ip.isBroadcast && !ip.isUnspecified &&
    !ip.isMulticast

def publicIpv6 (ip : Ipv6Addr) : Bool :=
  !ip.isLoopback && !ip.isUnspecified && !ip.isMulticast &&
    ip.segment 0 &&& 0xfe00 != 0xfc00 && ip.segment 0 &&& 0xffc0 != 0xfe80

/-- The names which the check rejects, in lower case. -/
def isLocalName (name : String) : Bool :=
  name == "localhost" || endsWith name ".localhost" || endsWith name ".local" ||
    endsWith name ".internal"

def publicHost : Option Host → Bool
  | some (.domain name) => !isLocalName (toAsciiLowercase name)
  | some (.ipv4 ip) => publicIpv4 ip
  | some (.ipv6 ip) =>
      match ip.toIpv4 with
      | some inner => publicIpv4 inner
      | none => publicIpv6 ip
  | none => false

def validateDigest (digest label : String) : Result Unit :=
  rejectIf (isSha256Hex digest = false)
    (.validation s!"{label} must be a lowercase SHA-256 digest")

def validateEvidenceTitle (title : Option String) : Result Unit :=
  rejectIf (presentAnd (fun title => trim title == "" || 300 < charCount title) title)
    (.validation "evidence title must contain 1 to 300 characters when present")

def validateEvidenceDigest : Option String → Result Unit
  | some digest => validateDigest digest "evidence digest"
  | none => pure ()

/-- Is the URL of public HTTP or HTTPS, without credentials? -/
def isCredentialFree (url : HostUrl) : Prop :=
  (url.scheme = "http" ∨ url.scheme = "https") ∧ url.host ≠ none ∧ url.username = "" ∧
    url.password = none

instance (url : HostUrl) : Decidable (isCredentialFree url) :=
  inferInstanceAs (Decidable (_ ∧ _ ∧ _ ∧ _))

section

variable (parse : String → Option HostUrl)

def validateEvidence (evidence : EvidenceRef) : Result Unit := do
  let url ← okOr (parse evidence.url) (.validation "evidence URL is invalid")
  rejectIf (¬ isCredentialFree url)
    (.validation "evidence URL must use credential-free public HTTP or HTTPS")
  rejectIf (publicHost url.host = false)
    (.validation "evidence URL must not name a local, private, link-local, or multicast host")
  validateEvidenceTitle evidence.title
  validateEvidenceDigest evidence.digest

/-! ## Public hosts -/

/-- The addresses which are no public host. -/
def IsSpecialV4 (ip : Ipv4Addr) : Prop :=
  ip.isPrivate = true ∨ ip.isLoopback = true ∨ ip.isLinkLocal = true ∨ ip.isBroadcast = true ∨
    ip.isUnspecified = true ∨ ip.isMulticast = true

def IsSpecialV6 (ip : Ipv6Addr) : Prop :=
  ip.isLoopback = true ∨ ip.isUnspecified = true ∨ ip.isUniqueLocal = true ∨
    ip.isUnicastLinkLocal = true ∨ ip.isMulticast = true

/-- The name without the dot of the root. -/
def withoutRootDot (name : String) : String :=
  if endsWith name "." then TextBytes.ofChars (chars name).dropLast else name

def Host.IsPublic : Host → Prop
  | .ipv4 ip => ¬ IsSpecialV4 ip
  | .ipv6 ip => ¬ IsSpecialV6 ip ∧ ∀ form inner,
      form = Ipv6Addr.Embedding.mapped ∨ form = Ipv6Addr.Embedding.compatible →
      ip.Embeds form inner → ¬ IsSpecialV4 inner
  | .domain name => isLocalName (toAsciiLowercase name) = false ∧
      isLocalName (withoutRootDot (toAsciiLowercase name)) = false

/-- The hosts which the check lets through: the loopback address of 128 bits, and
a local name with the dot of the root. -/
def Host.Evades : Host → Prop
  | .ipv4 _ => False
  | .ipv6 ip => ip.isLoopback = true
  | .domain name => isLocalName (toAsciiLowercase name) = false ∧
      isLocalName (withoutRootDot (toAsciiLowercase name)) = true

/-- The reference passes the checks which are not about the host. -/
def PassesOtherChecks (evidence : EvidenceRef) : Prop :=
  (∃ url, parse evidence.url = some url ∧ isCredentialFree url) ∧
    validateEvidenceTitle evidence.title = .ok () ∧
    validateEvidenceDigest evidence.digest = .ok ()

/-- The URL of the reference names such a host. -/
def NamesHost (evidence : EvidenceRef) (property : Host → Prop) : Prop :=
  ∃ url host, parse evidence.url = some url ∧ url.host = some host ∧ property host

end

theorem publicIpv4_iff (ip : Ipv4Addr) : publicIpv4 ip = true ↔ ¬ IsSpecialV4 ip := by
  simp only [publicIpv4, IsSpecialV4, Bool.and_eq_true, Bool.not_eq_true', not_or,
    Bool.not_eq_true, and_assoc]

theorem publicIpv6_iff (ip : Ipv6Addr) : publicIpv6 ip = true ↔ ¬ IsSpecialV6 ip := by
  simp only [publicIpv6, IsSpecialV6, Ipv6Addr.isUniqueLocal, Ipv6Addr.isUnicastLinkLocal,
    Bool.and_eq_true, Bool.not_eq_true', not_or, Bool.not_eq_true, bne_iff_ne, ne_eq,
    beq_eq_false_iff_ne]
  tauto

/-- An address which embeds another in these forms is the loopback address, or
the embedded address decides whether it is special. -/
theorem isSpecialV6_of_toIpv4 {ip : Ipv6Addr} {inner : Ipv4Addr} (h : ip.toIpv4 = some inner)
    (hspecial : IsSpecialV6 ip) : ip.isLoopback = true ∨ IsSpecialV4 inner := by
  obtain ⟨hleading, rfl⟩ := Ipv6Addr.toIpv4_eq_some_iff.mp h
  have hbound := ip.bound
  have hzero : ip.segment 0 = 0 := by
    norm_num [Ipv6Addr.segment] at hleading ⊢
    omega
  rcases hspecial with hloopback | hunspecified | hunique | hlink | hmulticast
  · exact .inl hloopback
  · refine .inr (.inr (.inr (.inr (.inr (.inl ?_)))))
    simp only [Ipv6Addr.isUnspecified, Ipv4Addr.isUnspecified, Ipv6Addr.tail, beq_iff_eq]
      at hunspecified ⊢
    rw [hunspecified]
    rfl
  · rw [Ipv6Addr.isUniqueLocal_iff, hzero] at hunique
    cases hunique
  · rw [Ipv6Addr.isUnicastLinkLocal_iff, hzero] at hlink
    cases hlink
  · rw [Ipv6Addr.isMulticast_iff, hzero] at hmulticast
    cases hmulticast

/-- The loopback address of 128 bits is judged as an address of 32 bits which is
not special. -/
theorem toIpv4_of_isLoopback {ip : Ipv6Addr} (h : ip.isLoopback = true) :
    ∃ inner, ip.toIpv4 = some inner ∧ ¬ IsSpecialV4 inner := by
  have hvalue : ip.value = 1 := by simpa [Ipv6Addr.isLoopback] using h
  refine ⟨ip.tail, ?_, ?_⟩
  · rw [Ipv6Addr.toIpv4_eq_some_iff, hvalue]
    exact ⟨.inl rfl, rfl⟩
  · have htail : ip.tail = ⟨1, by decide⟩ := by
      simp [Ipv6Addr.tail, hvalue]
    rw [htail, ← publicIpv4_iff]
    decide

/-- The check of the host lets through the public hosts and those which evade it. -/
theorem publicHost_iff (host : Host) :
    publicHost (some host) = true ↔ host.IsPublic ∨ host.Evades := by
  cases host with
  | domain name =>
      simp only [publicHost, Host.IsPublic, Host.Evades, Bool.not_eq_true']
      rw [← and_or_left]
      cases isLocalName (withoutRootDot (toAsciiLowercase name)) <;> simp
  | ipv4 ip =>
      simp only [publicHost, Host.IsPublic, Host.Evades, or_false, publicIpv4_iff]
  | ipv6 ip =>
      simp only [publicHost, Host.IsPublic, Host.Evades]
      cases htoIpv4 : ip.toIpv4 with
      | none =>
          have hembeds : ∀ form inner, form = Ipv6Addr.Embedding.mapped ∨
              form = Ipv6Addr.Embedding.compatible → ip.Embeds form inner →
              ¬ IsSpecialV4 inner := by
            intro form inner hform hembeds
            rw [Ipv6Addr.toIpv4_eq_some_of_embeds hform hembeds] at htoIpv4
            cases htoIpv4
          have hloopback : ¬ ip.isLoopback = true := by
            intro hloopback
            obtain ⟨inner, hinner, -⟩ := toIpv4_of_isLoopback hloopback
            rw [htoIpv4] at hinner
            cases hinner
          rw [publicIpv6_iff]
          constructor
          · intro hpublic
            exact .inl ⟨hpublic, hembeds⟩
          · rintro (⟨hpublic, -⟩ | hevades)
            · exact hpublic
            · exact absurd hevades hloopback
      | some inner =>
          rw [publicIpv4_iff]
          constructor
          · intro hinner
            by_cases hloopback : ip.isLoopback = true
            · exact .inr hloopback
            · refine .inl ⟨?_, ?_⟩
              · intro hspecial
                rcases isSpecialV6_of_toIpv4 htoIpv4 hspecial with hfirst | hsecond
                · exact hloopback hfirst
                · exact hinner hsecond
              · intro form other hform hembeds
                rw [Ipv6Addr.toIpv4_eq_some_of_embeds hform hembeds, Option.some.injEq] at htoIpv4
                rw [htoIpv4]
                exact hinner
          · rintro (⟨-, hembeds⟩ | hloopback)
            · obtain ⟨form, hform, hform'⟩ := Ipv6Addr.embeds_of_toIpv4 htoIpv4
              exact hembeds form inner hform hform'
            · obtain ⟨other, hother, hnot⟩ := toIpv4_of_isLoopback hloopback
              rw [htoIpv4, Option.some.injEq] at hother
              rw [hother]
              exact hnot

theorem Host.IsPublic.not_evades {host : Host} (h : host.IsPublic) : ¬ host.Evades := by
  intro hevades
  cases host with
  | domain name =>
      have hlocal := hevades.2
      rw [h.2] at hlocal
      cases hlocal
  | ipv4 ip => exact hevades
  | ipv6 ip => exact h.1 (.inl hevades)

theorem validateEvidence_eq_ok {parse : String → Option HostUrl} {evidence : EvidenceRef} :
    validateEvidence parse evidence = .ok () ↔ PassesOtherChecks parse evidence ∧
      NamesHost parse evidence fun host => host.IsPublic ∨ host.Evades := by
  simp only [validateEvidence, bind_eq_ok, okOr_eq_ok, rejectIf_eq_ok, not_not,
    Bool.not_eq_false]
  constructor
  · rintro ⟨url, hurl, ⟨⟩, hfree, ⟨⟩, hpublic, ⟨⟩, htitle, hdigest⟩
    obtain ⟨host, hhost⟩ := Option.ne_none_iff_exists'.mp hfree.2.1
    rw [hhost, publicHost_iff] at hpublic
    exact ⟨⟨⟨url, hurl, hfree⟩, htitle, hdigest⟩, url, host, hurl, hhost, hpublic⟩
  · rintro ⟨⟨⟨url, hurl, hfree⟩, htitle, hdigest⟩, other, host, hother, hhost, hpublic⟩
    rw [hurl, Option.some.injEq] at hother
    rw [← hother] at hhost
    rw [← publicHost_iff, ← hhost] at hpublic
    exact ⟨url, hurl, (), hfree, (), hpublic, (), htitle, hdigest⟩

/-- An accepted reference names a public host, unless it passes all other checks
and its host evades this one. -/
theorem validateEvidence_public_iff (parse : String → Option HostUrl) (evidence : EvidenceRef) :
    (validateEvidence parse evidence = .ok () → NamesHost parse evidence Host.IsPublic) ↔
      ¬ (PassesOtherChecks parse evidence ∧ NamesHost parse evidence Host.Evades) := by
  rw [validateEvidence_eq_ok]
  constructor
  · rintro hpublic ⟨hother, url, host, hurl, hhost, hevades⟩
    obtain ⟨same, known, hsame, hknown, hhostPublic⟩ :=
      hpublic ⟨hother, url, host, hurl, hhost, .inr hevades⟩
    rw [hurl, Option.some.injEq] at hsame
    rw [← hsame, hhost, Option.some.injEq] at hknown
    rw [← hknown] at hhostPublic
    exact hhostPublic.not_evades hevades
  · rintro hnot ⟨hother, url, host, hurl, hhost, hpublic | hevades⟩
    · exact ⟨url, host, hurl, hhost, hpublic⟩
    · exact absurd ⟨hother, url, host, hurl, hhost, hevades⟩ hnot

namespace Sample

/-- The URLs of the loopback address and of a local name with the dot of the root. -/
def parseEvidence (text : String) : Option HostUrl :=
  if text = "http://[::1]/" then
    some ⟨"http", some (.ipv6 ⟨1, by decide⟩), "", none, some 80⟩
  else if text = "http://localhost./" then
    some ⟨"http", some (.domain "localhost."), "", none, some 80⟩
  else none

/-- Both are accepted, and neither names a public host. -/
theorem validateEvidence_loopback :
    (validateEvidence parseEvidence ⟨"http://[::1]/", none, none, none⟩ = .ok () ∧
      ¬ NamesHost parseEvidence ⟨"http://[::1]/", none, none, none⟩ Host.IsPublic) ∧
    (validateEvidence parseEvidence ⟨"http://localhost./", none, none, none⟩ = .ok () ∧
      ¬ NamesHost parseEvidence ⟨"http://localhost./", none, none, none⟩ Host.IsPublic) := by
  refine ⟨⟨by decide, ?_⟩, by decide, ?_⟩
  · rintro ⟨parsed, host, hparsed, hhost, hpublic⟩
    cases hparsed
    cases hhost
    exact hpublic.not_evades rfl
  · rintro ⟨parsed, host, hparsed, hhost, hpublic⟩
    cases hparsed
    cases hhost
    exact hpublic.not_evades ⟨by decide, by decide⟩

end Sample

end Commonwake
