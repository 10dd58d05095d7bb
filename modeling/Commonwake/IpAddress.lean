import Mathlib.Tactic

/-!
# Internet addresses

Addresses are numbers of 32 and of 128 bits.  The standard library looks at
their octets and segments; the registries speak of blocks, the addresses which
share their leading bits.  This module has both, and the ways in which an
address of 128 bits embeds one of 32 bits.
-/

namespace IpAddress

/-! ## Blocks -/

/-- The addresses of the given width which share the leading bits of a network. -/
structure Block (width : ℕ) where
  network : ℕ
  length : ℕ
  deriving DecidableEq

def Block.Contains {width : ℕ} (block : Block width) (value : ℕ) : Prop :=
  value / 2 ^ (width - block.length) = block.network / 2 ^ (width - block.length)

instance {width : ℕ} (block : Block width) (value : ℕ) : Decidable (block.Contains value) :=
  inferInstanceAs (Decidable (_ = _))

/-- A mask of leading bits rounds down. -/
theorem land_leading {width low n : ℕ} (hlow : low ≤ width) (h : n < 2 ^ width) :
    n &&& (2 ^ width - 2 ^ low) = n / 2 ^ low * 2 ^ low := by
  have hmask : 2 ^ width - 2 ^ low = (2 ^ (width - low) - 1) * 2 ^ low := by
    rw [Nat.sub_mul, ← pow_add, Nat.sub_add_cancel hlow, one_mul]
  refine Nat.eq_of_testBit_eq fun i => ?_
  rw [hmask, Nat.testBit_and, ← Nat.shiftLeft_eq, ← Nat.shiftLeft_eq, ← Nat.shiftRight_eq_div_pow,
    Nat.testBit_shiftLeft, Nat.testBit_shiftLeft, Nat.testBit_shiftRight,
    Nat.testBit_two_pow_sub_one]
  by_cases hi : low ≤ i
  · rw [Nat.add_sub_cancel' hi]
    by_cases hwidth : i < width
    · have hbit : i - low < width - low := by omega
      simp [hi, hbit]
    · have hout : n.testBit i = false :=
        Nat.testBit_lt_two_pow (h.trans_le (Nat.pow_le_pow_right (by decide) (by omega)))
      simp [hout]
  · simp [hi]

/-! ## Addresses of 32 bits -/

structure Ipv4Addr where
  value : ℕ
  bound : value < 2 ^ 32
  deriving DecidableEq

namespace Ipv4Addr

/-- An octet, counted from the left. -/
def octet (ip : Ipv4Addr) (index : ℕ) : ℕ := ip.value / 256 ^ (3 - index) % 256

def isPrivate (ip : Ipv4Addr) : Bool :=
  ip.octet 0 == 10 || (ip.octet 0 == 172 && 16 ≤ ip.octet 1 && ip.octet 1 ≤ 31) ||
    (ip.octet 0 == 192 && ip.octet 1 == 168)

def isLoopback (ip : Ipv4Addr) : Bool := ip.octet 0 == 127

def isLinkLocal (ip : Ipv4Addr) : Bool := ip.octet 0 == 169 && ip.octet 1 == 254

def isBroadcast (ip : Ipv4Addr) : Bool := ip.value == 2 ^ 32 - 1

def isDocumentation (ip : Ipv4Addr) : Bool :=
  (ip.octet 0 == 192 && ip.octet 1 == 0 && ip.octet 2 == 2) ||
    (ip.octet 0 == 198 && ip.octet 1 == 51 && ip.octet 2 == 100) ||
    (ip.octet 0 == 203 && ip.octet 1 == 0 && ip.octet 2 == 113)

def isUnspecified (ip : Ipv4Addr) : Bool := ip.value == 0

def isMulticast (ip : Ipv4Addr) : Bool := 224 ≤ ip.octet 0 && ip.octet 0 ≤ 239

end Ipv4Addr

/-! ## Addresses of 128 bits -/

structure Ipv6Addr where
  value : ℕ
  bound : value < 2 ^ 128
  deriving DecidableEq

namespace Ipv6Addr

/-- A segment of 16 bits, counted from the left. -/
def segment (ip : Ipv6Addr) (index : ℕ) : ℕ := ip.value / 65536 ^ (7 - index) % 65536

def isLoopback (ip : Ipv6Addr) : Bool := ip.value == 1

def isUnspecified (ip : Ipv6Addr) : Bool := ip.value == 0

def isUniqueLocal (ip : Ipv6Addr) : Bool := ip.segment 0 &&& 0xfe00 == 0xfc00

def isUnicastLinkLocal (ip : Ipv6Addr) : Bool := ip.segment 0 &&& 0xffc0 == 0xfe80

def isMulticast (ip : Ipv6Addr) : Bool := ip.segment 0 &&& 0xff00 == 0xff00

/-- The last 32 bits. -/
def tail (ip : Ipv6Addr) : Ipv4Addr := ⟨ip.value % 2 ^ 32, Nat.mod_lt _ (by decide)⟩

/-- `to_ipv4`: the embedded address of the mapped and of the compatible form. -/
def toIpv4 (ip : Ipv6Addr) : Option Ipv4Addr :=
  if ip.segment 0 = 0 ∧ ip.segment 1 = 0 ∧ ip.segment 2 = 0 ∧ ip.segment 3 = 0 ∧
      ip.segment 4 = 0 ∧ (ip.segment 5 = 0 ∨ ip.segment 5 = 0xffff)
  then some ip.tail else none

/-- The forms in which an address embeds one of 32 bits: mapped, compatible,
6to4, and the well-known prefix of NAT64. -/
inductive Embedding
  | mapped | compatible | sixToFour | nat64
  deriving DecidableEq

/-- The block of the form, and the bits to the right of the embedded address. -/
def Embedding.block : Embedding → Block 128 × ℕ
  | .mapped => (⟨0xffff * 2 ^ 32, 96⟩, 0)
  | .compatible => (⟨0, 96⟩, 0)
  | .sixToFour => (⟨0x2002 * 2 ^ 112, 16⟩, 80)
  | .nat64 => (⟨0x0064ff9b * 2 ^ 96, 96⟩, 0)

/-- The address embeds the given one in the given form. -/
def Embeds (ip : Ipv6Addr) (form : Embedding) (inner : Ipv4Addr) : Prop :=
  form.block.1.Contains ip.value ∧ ip.value / 2 ^ form.block.2 % 2 ^ 32 = inner.value

theorem segment_lt (ip : Ipv6Addr) (index : ℕ) : ip.segment index < 2 ^ 16 :=
  Nat.mod_lt _ (by decide)

theorem isUniqueLocal_iff (ip : Ipv6Addr) :
    ip.isUniqueLocal = true ↔ ip.segment 0 / 2 ^ 9 = 0x7e := by
  have hmask := land_leading (show 9 ≤ 16 by decide) (ip.segment_lt 0)
  unfold isUniqueLocal
  rw [beq_iff_eq]
  norm_num at hmask ⊢
  omega

theorem isUnicastLinkLocal_iff (ip : Ipv6Addr) :
    ip.isUnicastLinkLocal = true ↔ ip.segment 0 / 2 ^ 6 = 0x3fa := by
  have hmask := land_leading (show 6 ≤ 16 by decide) (ip.segment_lt 0)
  unfold isUnicastLinkLocal
  rw [beq_iff_eq]
  norm_num at hmask ⊢
  omega

theorem isMulticast_iff (ip : Ipv6Addr) :
    ip.isMulticast = true ↔ ip.segment 0 / 2 ^ 8 = 0xff := by
  have hmask := land_leading (show 8 ≤ 16 by decide) (ip.segment_lt 0)
  unfold isMulticast
  rw [beq_iff_eq]
  norm_num at hmask ⊢
  omega

theorem toIpv4_eq_some_iff {ip : Ipv6Addr} {inner : Ipv4Addr} :
    ip.toIpv4 = some inner ↔
      (ip.value / 2 ^ 32 = 0 ∨ ip.value / 2 ^ 32 = 0xffff) ∧ inner = ip.tail := by
  have hbound := ip.bound
  unfold toIpv4
  rw [Option.ite_none_right_eq_some, Option.some.injEq, eq_comm (a := inner)]
  refine and_congr_left' ?_
  simp only [segment]
  norm_num at hbound ⊢
  omega

/-- What an address embeds in the mapped or the compatible form is what
`to_ipv4` returns. -/
theorem toIpv4_eq_some_of_embeds {ip : Ipv6Addr} {form : Embedding} {inner : Ipv4Addr}
    (hform : form = .mapped ∨ form = .compatible) (h : ip.Embeds form inner) :
    ip.toIpv4 = some inner := by
  obtain ⟨hblock, hvalue⟩ := h
  have hbound := ip.bound
  rw [toIpv4_eq_some_iff]
  rcases hform with rfl | rfl
  all_goals
    norm_num [Embedding.block, Block.Contains] at hblock hvalue
    refine ⟨by omega, ?_⟩
    cases inner
    simp only [tail, Ipv4Addr.mk.injEq]
    exact hvalue.symm

theorem embeds_of_toIpv4 {ip : Ipv6Addr} {inner : Ipv4Addr} (h : ip.toIpv4 = some inner) :
    ∃ form, (form = .mapped ∨ form = .compatible) ∧ ip.Embeds form inner := by
  obtain ⟨hleading, rfl⟩ := toIpv4_eq_some_iff.mp h
  rcases hleading with hzero | hmapped
  · refine ⟨.compatible, .inr rfl, ?_, ?_⟩
    · norm_num [Embedding.block, Block.Contains] at hzero ⊢
      exact hzero
    · norm_num [Embedding.block, tail]
  · refine ⟨.mapped, .inl rfl, ?_, ?_⟩
    · norm_num [Embedding.block, Block.Contains] at hmapped ⊢
      exact hmapped
    · norm_num [Embedding.block, tail]

end Ipv6Addr

end IpAddress
