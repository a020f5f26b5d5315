import Mathlib

/-!
# The addresses that a preview may fetch

Before it fetches a page for a preview, the server refuses the addresses that are not public. The
test knows the blocks of private, link-local, shared and documentation addresses; it leaves out
some blocks that the registries of special-purpose addresses list as not globally reachable, and
of the IPv6 forms that embed an IPv4 address it looks into the mapped form only.

## Main definitions

- `isDisallowedIp`: the test of the server
- `IpAddr.PublicUnicast`: globally reachable, unicast, and so is the address that is embedded
- `IpAddr.Missed`: the blocks that the test leaves out

## Main results

- `publicUnicast_iff`: the test lets only public addresses through, those of the missed blocks
  apart
-/

set_option autoImplicit false

namespace Repartee.Web

structure Ipv4Addr where
  a : BitVec 8
  b : BitVec 8
  c : BitVec 8
  d : BitVec 8
  deriving DecidableEq

structure Ipv6Addr where
  s0 : BitVec 16
  s1 : BitVec 16
  s2 : BitVec 16
  s3 : BitVec 16
  s4 : BitVec 16
  s5 : BitVec 16
  s6 : BitVec 16
  s7 : BitVec 16
  deriving DecidableEq

inductive IpAddr where
  | v4 (ip : Ipv4Addr)
  | v6 (ip : Ipv6Addr)
  deriving DecidableEq

/-! ### The test of the server -/

namespace Ipv4Addr

def isLoopback (ip : Ipv4Addr) : Bool := ip.a = 127

def isPrivate (ip : Ipv4Addr) : Bool :=
  ip.a = 10 || (ip.a = 172 && 16 ≤ ip.b && ip.b ≤ 31) || (ip.a = 192 && ip.b = 168)

def isLinkLocal (ip : Ipv4Addr) : Bool := ip.a = 169 && ip.b = 254

def isMulticast (ip : Ipv4Addr) : Bool := 224 ≤ ip.a && ip.a ≤ 239

def isBroadcast (ip : Ipv4Addr) : Bool := ip = ⟨255, 255, 255, 255⟩

def isUnspecified (ip : Ipv4Addr) : Bool := ip = ⟨0, 0, 0, 0⟩

def isDocumentation (ip : Ipv4Addr) : Bool :=
  (ip.a = 192 && ip.b = 0 && ip.c = 2) || (ip.a = 198 && ip.b = 51 && ip.c = 100) ||
    (ip.a = 203 && ip.b = 0 && ip.c = 113)

end Ipv4Addr

namespace Ipv6Addr

def isLoopback (ip : Ipv6Addr) : Bool := ip = ⟨0, 0, 0, 0, 0, 0, 0, 1⟩

def isMulticast (ip : Ipv6Addr) : Bool := ip.s0 &&& 0xff00 = 0xff00

def isUnspecified (ip : Ipv6Addr) : Bool := ip = ⟨0, 0, 0, 0, 0, 0, 0, 0⟩

/-- The IPv4 address in two segments. -/
def embedded (hi lo : BitVec 16) : Ipv4Addr :=
  ⟨hi.extractLsb' 8 8, hi.extractLsb' 0 8, lo.extractLsb' 8 8, lo.extractLsb' 0 8⟩

def toIpv4Mapped (ip : Ipv6Addr) : Option Ipv4Addr :=
  if ip.s0 = 0 ∧ ip.s1 = 0 ∧ ip.s2 = 0 ∧ ip.s3 = 0 ∧ ip.s4 = 0 ∧ ip.s5 = 0xffff then
    some (embedded ip.s6 ip.s7)
  else none

end Ipv6Addr

/-- The branch of `is_disallowed_ip` for IPv4. -/
def isDisallowedIpv4 (v4 : Ipv4Addr) : Bool :=
  if v4.isLoopback || v4.isPrivate || v4.isLinkLocal || v4.isMulticast || v4.isBroadcast ||
      v4.isUnspecified || v4.isDocumentation then true
  else v4.a = 100 && 64 ≤ v4.b && v4.b ≤ 127

def isDisallowedIp : IpAddr → Bool
  | .v4 v4 => isDisallowedIpv4 v4
  | .v6 v6 =>
    if v6.isLoopback || v6.isMulticast || v6.isUnspecified then true
    else if v6.s0 &&& 0xfe00 = 0xfc00 then true
    else if v6.s0 &&& 0xffc0 = 0xfe80 then true
    else if v6.s0 = 0x2001 ∧ v6.s1 = 0x0db8 then true
    else if (v6.toIpv4Mapped).any isDisallowedIpv4 then true
    else false

/-! ### The registries -/

/-- The addresses of a width that share a number of leading bits with an address. -/
structure Block (width : Nat) where
  base : Nat
  len : Nat

namespace Block

variable {width : Nat}

def has (block : Block width) (bits : Nat) : Bool :=
  bits / 2 ^ (width - block.len) = block.base / 2 ^ (width - block.len)

/-- The first address of a block. -/
def first (block : Block width) : Nat :=
  block.base / 2 ^ (width - block.len) * 2 ^ (width - block.len)

/-- One of the blocks has the address. -/
def AnyHas (blocks : List (Block width)) (bits : Nat) : Prop :=
  ∃ block ∈ blocks, block.has bits = true

instance (blocks : List (Block width)) (bits : Nat) : Decidable (AnyHas blocks bits) :=
  inferInstanceAs (Decidable (∃ block ∈ blocks, block.has bits = true))

end Block

open Block

def Ipv4Addr.toBits (ip : Ipv4Addr) : Nat :=
  ip.a.toNat * 2 ^ 24 + ip.b.toNat * 2 ^ 16 + ip.c.toNat * 2 ^ 8 + ip.d.toNat

def Ipv6Addr.toBits (ip : Ipv6Addr) : Nat :=
  ip.s0.toNat * 2 ^ 112 + ip.s1.toNat * 2 ^ 96 + ip.s2.toNat * 2 ^ 80 + ip.s3.toNat * 2 ^ 64 +
    ip.s4.toNat * 2 ^ 48 + ip.s5.toNat * 2 ^ 32 + ip.s6.toNat * 2 ^ 16 + ip.s7.toNat

/-- The block `a.b.c.d/len`. -/
def v4Block (a b c d : BitVec 8) (len : Nat) : Block 32 := ⟨Ipv4Addr.toBits ⟨a, b, c, d⟩, len⟩

/-- The block of the addresses that begin with four segments. -/
def v6Block (s0 s1 s2 s3 : BitVec 16) (len : Nat) : Block 128 :=
  ⟨Ipv6Addr.toBits ⟨s0, s1, s2, s3, 0, 0, 0, 0⟩, len⟩

/-- One address of `2001:1::/48`. -/
def v6Anycast (s7 : BitVec 16) : Block 128 := ⟨Ipv6Addr.toBits ⟨0x2001, 1, 0, 0, 0, 0, 0, s7⟩, 128⟩

/-- `::/128`, `::1/128` and `::ffff:0:0/96`. -/
def unspecified : Block 128 := v6Block 0 0 0 0 128
def loopback : Block 128 := ⟨Ipv6Addr.toBits ⟨0, 0, 0, 0, 0, 0, 0, 1⟩, 128⟩
def ipv4Mapped : Block 128 := ⟨Ipv6Addr.toBits ⟨0, 0, 0, 0, 0, 0xffff, 0, 0⟩, 96⟩

/-- The blocks of the IPv4 registry that are not globally reachable. -/
def ipv4Unreachable : List (Block 32) :=
  [v4Block 0 0 0 0 8, v4Block 10 0 0 0 8, v4Block 100 64 0 0 10, v4Block 127 0 0 0 8,
    v4Block 169 254 0 0 16, v4Block 172 16 0 0 12, v4Block 192 0 0 0 24, v4Block 192 0 2 0 24,
    v4Block 192 168 0 0 16, v4Block 198 18 0 0 15, v4Block 198 51 100 0 24,
    v4Block 203 0 113 0 24, v4Block 240 0 0 0 4, v4Block 255 255 255 255 32]

/-- The blocks of the IPv4 registry that are globally reachable. -/
def ipv4Reachable : List (Block 32) :=
  [v4Block 192 0 0 9 32, v4Block 192 0 0 10 32, v4Block 192 31 196 0 24, v4Block 192 52 193 0 24,
    v4Block 192 175 48 0 24]

/-- The blocks of the IPv6 registry that are not globally reachable. -/
def ipv6Unreachable : List (Block 128) :=
  [loopback, unspecified, ipv4Mapped, v6Block 0x64 0xff9b 1 0 48, v6Block 0x100 0 0 0 64,
    v6Block 0x100 0 0 1 64, v6Block 0x2001 0 0 0 23, v6Block 0x2001 0xdb8 0 0 32,
    v6Block 0x3fff 0 0 0 20, v6Block 0x5f00 0 0 0 16, v6Block 0xfc00 0 0 0 7,
    v6Block 0xfe80 0 0 0 10]

/-- The blocks of the IPv6 registry that are globally reachable. -/
def ipv6Reachable : List (Block 128) :=
  [v6Block 0x64 0xff9b 0 0 96, v6Anycast 1, v6Anycast 2, v6Anycast 3, v6Block 0x2001 3 0 0 32,
    v6Block 0x2001 4 0x112 0 48, v6Block 0x2001 0x20 0 0 28, v6Block 0x2001 0x30 0 0 28,
    v6Block 0x2620 0x4f 0x8000 0 48]

/-- In no block that is not globally reachable, but for the reachable blocks inside it. -/
def GloballyReachable {width : Nat} (unreachable reachable : List (Block width)) (bits : Nat) :
    Prop :=
  AnyHas unreachable bits → AnyHas reachable bits

/-- The blocks that a preview is not to be fetched from as a whole. -/
def ipv4Excluded : List (Block 32) :=
  [v4Block 0 0 0 0 8, v4Block 240 0 0 0 4, v4Block 198 18 0 0 15, v4Block 192 0 0 0 24]

/-- The IPv6 forms that embed an IPv4 address: compatible, NAT64 and 6to4, besides the mapped. -/
def ipv4Compatible : Block 128 := v6Block 0 0 0 0 96
def nat64 : Block 128 := v6Block 0x64 0xff9b 0 0 96
def sixToFour : Block 128 := v6Block 0x2002 0 0 0 16

/-- The IPv4 address that an IPv6 address embeds. -/
def Ipv6Addr.embedded? (ip : Ipv6Addr) : Option Ipv4Addr :=
  if AnyHas [ipv4Mapped, ipv4Compatible, nat64] ip.toBits then
    some (Ipv6Addr.embedded ip.s6 ip.s7)
  else if sixToFour.has ip.toBits then some (Ipv6Addr.embedded ip.s1 ip.s2)
  else none

def ipv4Multicast : Block 32 := v4Block 224 0 0 0 4
def ipv6Multicast : Block 128 := v6Block 0xff00 0 0 0 8

/-- What a preview may be fetched from. -/
def IpAddr.PublicUnicast : IpAddr → Prop
  | .v4 ip => GloballyReachable ipv4Unreachable ipv4Reachable ip.toBits ∧
      ¬ ipv4Multicast.has ip.toBits ∧ ¬ AnyHas ipv4Excluded ip.toBits
  | .v6 ip => GloballyReachable ipv6Unreachable ipv6Reachable ip.toBits ∧
      ¬ ipv6Multicast.has ip.toBits ∧
      ∀ v4, ip.embedded? = some v4 → isDisallowedIp (.v4 v4) = false

/-- The IPv4 blocks that the server refuses. -/
def ipv4Refused : List (Block 32) :=
  [v4Block 127 0 0 0 8, v4Block 10 0 0 0 8, v4Block 172 16 0 0 12, v4Block 192 168 0 0 16,
    v4Block 169 254 0 0 16, ipv4Multicast, v4Block 255 255 255 255 32, v4Block 0 0 0 0 32,
    v4Block 192 0 2 0 24, v4Block 198 51 100 0 24, v4Block 203 0 113 0 24, v4Block 100 64 0 0 10]

/-- The IPv6 blocks that the server refuses. -/
def ipv6Refused : List (Block 128) :=
  [loopback, ipv6Multicast, unspecified, v6Block 0xfc00 0 0 0 7, v6Block 0xfe80 0 0 0 10,
    v6Block 0x2001 0xdb8 0 0 32]

/-- The blocks of the IPv6 registry that the server does not know. -/
def ipv6Unknown : List (Block 128) :=
  [v6Block 0x64 0xff9b 1 0 48, v6Block 0x100 0 0 0 64, v6Block 0x100 0 0 1 64,
    v6Block 0x2001 0 0 0 23, v6Block 0x3fff 0 0 0 20, v6Block 0x5f00 0 0 0 16]

/-- What the server lets through and should not. A mapped address is not globally reachable even
where the address it embeds is. -/
def IpAddr.Missed : IpAddr → Prop
  | .v4 ip => AnyHas ipv4Excluded ip.toBits ∧ ¬ AnyHas ipv4Refused ip.toBits
  | .v6 ip => ¬ AnyHas ipv6Refused ip.toBits ∧
      ((AnyHas ipv6Unknown ip.toBits ∧ ¬ AnyHas ipv6Reachable ip.toBits) ∨
        (ipv4Mapped.has ip.toBits ∧ ¬ AnyHas ipv4Refused (Ipv6Addr.embedded ip.s6 ip.s7).toBits) ∨
        (AnyHas [ipv4Compatible, nat64] ip.toBits ∧
          AnyHas ipv4Refused (Ipv6Addr.embedded ip.s6 ip.s7).toBits) ∨
        (sixToFour.has ip.toBits ∧
          AnyHas ipv4Refused (Ipv6Addr.embedded ip.s1 ip.s2).toBits))

/-! ### Blocks as intervals -/

section Intervals

variable {width : Nat}

theorem Block.has_iff (block : Block width) (bits : Nat) : block.has bits = true ↔
    block.first ≤ bits ∧ bits < block.first + 2 ^ (width - block.len) := by
  have hpos : 0 < 2 ^ (width - block.len) := Nat.two_pow_pos _
  rw [Block.has, decide_eq_true_iff, Block.first, Nat.div_eq_iff hpos]
  omega

@[simp] theorem anyHas_nil (bits : Nat) : ¬ AnyHas ([] : List (Block width)) bits := by
  rintro ⟨_, h, -⟩
  cases h

@[simp] theorem anyHas_cons (block : Block width) (blocks : List (Block width)) (bits : Nat) :
    AnyHas (block :: blocks) bits ↔ block.has bits = true ∨ AnyHas blocks bits := by
  simp [AnyHas]

theorem anyHas_of_mem {block : Block width} {blocks : List (Block width)} {bits : Nat}
    (hmem : block ∈ blocks) (h : block.has bits = true) : AnyHas blocks bits := ⟨block, hmem, h⟩

theorem AnyHas.mono {blocks blocks' : List (Block width)} {bits : Nat} (h : AnyHas blocks bits)
    (hsub : blocks ⊆ blocks') : AnyHas blocks' bits := by
  obtain ⟨block, hmem, hhas⟩ := h
  exact ⟨block, hsub hmem, hhas⟩

end Intervals

/-! ### The tests of the server as blocks -/

section Tests

variable (ip : Ipv4Addr)

theorem isLoopback_iff : ip.isLoopback = true ↔ (v4Block 127 0 0 0 8).has ip.toBits = true := by
  simp only [Ipv4Addr.isLoopback, Block.has_iff, Block.first, v4Block, Ipv4Addr.toBits,
    BitVec.reduceToNat, Nat.reducePow, Nat.reduceMul, Nat.reduceAdd, Nat.reduceDiv, Nat.reduceSub,
    decide_eq_true_eq]
  bv_omega

theorem isPrivate_iff : ip.isPrivate = true ↔
    AnyHas [v4Block 10 0 0 0 8, v4Block 172 16 0 0 12, v4Block 192 168 0 0 16] ip.toBits := by
  simp only [Ipv4Addr.isPrivate, anyHas_cons, anyHas_nil, or_false, Block.has_iff, Block.first,
    v4Block, Ipv4Addr.toBits, BitVec.reduceToNat, Nat.reducePow, Nat.reduceMul, Nat.reduceAdd,
    Nat.reduceDiv, Nat.reduceSub, Bool.or_eq_true, Bool.and_eq_true, decide_eq_true_eq]
  bv_omega

theorem isLinkLocal_iff :
    ip.isLinkLocal = true ↔ (v4Block 169 254 0 0 16).has ip.toBits = true := by
  simp only [Ipv4Addr.isLinkLocal, Block.has_iff, Block.first, v4Block, Ipv4Addr.toBits,
    BitVec.reduceToNat, Nat.reducePow, Nat.reduceMul, Nat.reduceAdd, Nat.reduceDiv, Nat.reduceSub,
    Bool.and_eq_true, decide_eq_true_eq]
  bv_omega

theorem isMulticast_iff : ip.isMulticast = true ↔ ipv4Multicast.has ip.toBits = true := by
  simp only [Ipv4Addr.isMulticast, ipv4Multicast, Block.has_iff, Block.first, v4Block,
    Ipv4Addr.toBits, BitVec.reduceToNat, Nat.reducePow, Nat.reduceMul, Nat.reduceAdd,
    Nat.reduceDiv, Nat.reduceSub, Bool.and_eq_true, decide_eq_true_eq]
  bv_omega

theorem isBroadcast_iff :
    ip.isBroadcast = true ↔ (v4Block 255 255 255 255 32).has ip.toBits = true := by
  obtain ⟨a, b, c, d⟩ := ip
  simp only [Ipv4Addr.isBroadcast, Block.has_iff, Block.first, v4Block, Ipv4Addr.toBits,
    BitVec.reduceToNat, Nat.reducePow, Nat.reduceMul, Nat.reduceAdd, Nat.reduceDiv, Nat.reduceSub,
    decide_eq_true_eq, Ipv4Addr.mk.injEq]
  bv_omega

theorem isUnspecified_iff :
    ip.isUnspecified = true ↔ (v4Block 0 0 0 0 32).has ip.toBits = true := by
  obtain ⟨a, b, c, d⟩ := ip
  simp only [Ipv4Addr.isUnspecified, Block.has_iff, Block.first, v4Block, Ipv4Addr.toBits,
    BitVec.reduceToNat, Nat.reducePow, Nat.reduceMul, Nat.reduceAdd, Nat.reduceDiv, Nat.reduceSub,
    decide_eq_true_eq, Ipv4Addr.mk.injEq]
  bv_omega

theorem isDocumentation_iff : ip.isDocumentation = true ↔
    AnyHas [v4Block 192 0 2 0 24, v4Block 198 51 100 0 24, v4Block 203 0 113 0 24] ip.toBits := by
  simp only [Ipv4Addr.isDocumentation, anyHas_cons, anyHas_nil, or_false, Block.has_iff,
    Block.first, v4Block, Ipv4Addr.toBits, BitVec.reduceToNat, Nat.reducePow, Nat.reduceMul,
    Nat.reduceAdd, Nat.reduceDiv, Nat.reduceSub, Bool.or_eq_true, Bool.and_eq_true,
    decide_eq_true_eq]
  bv_omega

theorem shared_iff : (ip.a = 100 && 64 ≤ ip.b && ip.b ≤ 127) = true ↔
    (v4Block 100 64 0 0 10).has ip.toBits = true := by
  simp only [Block.has_iff, Block.first, v4Block, Ipv4Addr.toBits, BitVec.reduceToNat,
    Nat.reducePow, Nat.reduceMul, Nat.reduceAdd, Nat.reduceDiv, Nat.reduceSub, Bool.and_eq_true,
    decide_eq_true_eq]
  bv_omega

/-- The IPv4 addresses that the server refuses. -/
theorem isDisallowedIpv4_iff : isDisallowedIpv4 ip = true ↔ AnyHas ipv4Refused ip.toBits := by
  rw [isDisallowedIpv4, Bool.if_true_left]
  simp only [Bool.or_eq_true, decide_eq_true_eq, isLoopback_iff, isPrivate_iff, isLinkLocal_iff,
    isMulticast_iff, isBroadcast_iff, isUnspecified_iff, isDocumentation_iff, shared_iff,
    ipv4Refused, anyHas_cons, anyHas_nil, or_false, or_assoc]

end Tests

section Tests

variable (ip : Ipv6Addr)

theorem loopback_iff : ip.isLoopback = true ↔ loopback.has ip.toBits = true := by
  obtain ⟨s0, s1, s2, s3, s4, s5, s6, s7⟩ := ip
  simp only [Ipv6Addr.isLoopback, loopback, Block.has_iff, Block.first, Ipv6Addr.toBits,
    BitVec.reduceToNat, Nat.reducePow, Nat.reduceMul, Nat.reduceAdd, Nat.reduceDiv, Nat.reduceSub,
    decide_eq_true_eq, Ipv6Addr.mk.injEq]
  bv_omega

theorem unspecified_iff : ip.isUnspecified = true ↔ unspecified.has ip.toBits = true := by
  obtain ⟨s0, s1, s2, s3, s4, s5, s6, s7⟩ := ip
  simp only [Ipv6Addr.isUnspecified, unspecified, v6Block, Block.has_iff, Block.first,
    Ipv6Addr.toBits, BitVec.reduceToNat, Nat.reducePow, Nat.reduceMul, Nat.reduceAdd,
    Nat.reduceDiv, Nat.reduceSub, decide_eq_true_eq, Ipv6Addr.mk.injEq]
  bv_omega

theorem multicast_iff : ip.isMulticast = true ↔ ipv6Multicast.has ip.toBits = true := by
  rw [Ipv6Addr.isMulticast, decide_eq_true_iff]
  nth_rewrite 1 [show (0xff00 : BitVec 16) = BitVec.allOnes 16 <<< 8 from rfl]
  rw [← BitVec.shiftLeft_ushiftRight]
  simp only [ipv6Multicast, v6Block, Block.has_iff, Block.first, Ipv6Addr.toBits,
    BitVec.reduceToNat, Nat.reducePow, Nat.reduceMul, Nat.reduceAdd, Nat.reduceDiv, Nat.reduceSub]
  bv_omega

theorem uniqueLocal_iff :
    ip.s0 &&& 0xfe00 = 0xfc00 ↔ (v6Block 0xfc00 0 0 0 7).has ip.toBits = true := by
  rw [show (0xfe00 : BitVec 16) = BitVec.allOnes 16 <<< 9 from rfl,
    ← BitVec.shiftLeft_ushiftRight]
  simp only [v6Block, Block.has_iff, Block.first, Ipv6Addr.toBits, BitVec.reduceToNat,
    Nat.reducePow, Nat.reduceMul, Nat.reduceAdd, Nat.reduceDiv, Nat.reduceSub]
  bv_omega

theorem linkLocal_iff :
    ip.s0 &&& 0xffc0 = 0xfe80 ↔ (v6Block 0xfe80 0 0 0 10).has ip.toBits = true := by
  rw [show (0xffc0 : BitVec 16) = BitVec.allOnes 16 <<< 6 from rfl,
    ← BitVec.shiftLeft_ushiftRight]
  simp only [v6Block, Block.has_iff, Block.first, Ipv6Addr.toBits, BitVec.reduceToNat,
    Nat.reducePow, Nat.reduceMul, Nat.reduceAdd, Nat.reduceDiv, Nat.reduceSub]
  bv_omega

theorem documentation_iff : (ip.s0 = 0x2001 ∧ ip.s1 = 0x0db8) ↔
    (v6Block 0x2001 0xdb8 0 0 32).has ip.toBits = true := by
  simp only [v6Block, Block.has_iff, Block.first, Ipv6Addr.toBits, BitVec.reduceToNat,
    Nat.reducePow, Nat.reduceMul, Nat.reduceAdd, Nat.reduceDiv, Nat.reduceSub]
  bv_omega

theorem toIpv4Mapped_eq : ip.toIpv4Mapped =
    if ipv4Mapped.has ip.toBits then some (Ipv6Addr.embedded ip.s6 ip.s7) else none := by
  have hmapped : (ip.s0 = 0 ∧ ip.s1 = 0 ∧ ip.s2 = 0 ∧ ip.s3 = 0 ∧ ip.s4 = 0 ∧ ip.s5 = 0xffff) ↔
      ipv4Mapped.has ip.toBits = true := by
    simp only [ipv4Mapped, Block.has_iff, Block.first, Ipv6Addr.toBits, BitVec.reduceToNat,
      Nat.reducePow, Nat.reduceMul, Nat.reduceAdd, Nat.reduceDiv, Nat.reduceSub]
    bv_omega
  simp only [Ipv6Addr.toIpv4Mapped, hmapped]

/-- The IPv6 addresses that the server refuses. -/
theorem isDisallowedIpv6_iff : isDisallowedIp (.v6 ip) = true ↔ AnyHas ipv6Refused ip.toBits ∨
    ipv4Mapped.has ip.toBits = true ∧
      AnyHas ipv4Refused (Ipv6Addr.embedded ip.s6 ip.s7).toBits := by
  have hmapped : ip.toIpv4Mapped.any isDisallowedIpv4 = true ↔ ipv4Mapped.has ip.toBits = true ∧
      AnyHas ipv4Refused (Ipv6Addr.embedded ip.s6 ip.s7).toBits := by
    rw [toIpv4Mapped_eq, ← isDisallowedIpv4_iff]
    by_cases h : ipv4Mapped.has ip.toBits = true
    · rw [if_pos h, Option.any_some]
      exact (and_iff_right h).symm
    · rw [if_neg h]
      exact iff_of_false (by decide) (fun hboth => h hboth.1)
  rw [isDisallowedIp, ← hmapped]
  simp only [Bool.if_true_left, Bool.or_eq_true, decide_eq_true_eq, loopback_iff, multicast_iff,
    unspecified_iff, uniqueLocal_iff, linkLocal_iff, documentation_iff, ipv6Refused, anyHas_cons,
    anyHas_nil, or_false, or_assoc, Bool.false_eq_true]

end Tests

/-! ### What the server lets through -/

/-- Every IPv4 block that is not public is refused or excluded. -/
theorem refused_or_excluded {bits : Nat}
    (h : AnyHas ipv4Unreachable bits ∨ ipv4Multicast.has bits = true) :
    AnyHas ipv4Refused bits ∨ AnyHas ipv4Excluded bits := by
  simp only [ipv4Unreachable, ipv4Refused, ipv4Excluded, ipv4Multicast, anyHas_cons, anyHas_nil,
    or_false] at h ⊢
  simp only [Block.has_iff, Block.first, v4Block, Ipv4Addr.toBits, BitVec.reduceToNat,
    Nat.reducePow, Nat.reduceMul, Nat.reduceAdd, Nat.reduceDiv, Nat.reduceSub] at h ⊢
  omega

theorem publicUnicast_iff_v4 (ip : Ipv4Addr) :
    (isDisallowedIp (.v4 ip) = false → (IpAddr.v4 ip).PublicUnicast) ↔
      ¬ (IpAddr.v4 ip).Missed := by
  have hrefused : isDisallowedIp (.v4 ip) = false ↔ ¬ AnyHas ipv4Refused ip.toBits := by
    rw [← isDisallowedIpv4_iff, Bool.not_eq_true]
    rfl
  rw [hrefused]
  constructor
  · rintro h ⟨hexcluded, hallowed⟩
    exact (h hallowed).2.2 hexcluded
  · intro h hallowed
    have hexcluded : ¬ AnyHas ipv4Excluded ip.toBits := fun he => h ⟨he, hallowed⟩
    refine ⟨fun hunreachable => ?_, fun hmulticast => ?_, hexcluded⟩
    · exact absurd ((refused_or_excluded (Or.inl hunreachable)).resolve_left hallowed) hexcluded
    · exact hexcluded ((refused_or_excluded (Or.inr hmulticast)).resolve_left hallowed)

/-- Every IPv6 block that is not public is refused, unknown, or the one of the mapped form. -/
theorem refused_or_unknown {bits : Nat}
    (h : AnyHas ipv6Unreachable bits ∨ ipv6Multicast.has bits = true) :
    AnyHas ipv6Refused bits ∨ AnyHas ipv6Unknown bits ∨ ipv4Mapped.has bits = true := by
  simp only [ipv6Unreachable, ipv6Refused, ipv6Unknown, anyHas_cons, anyHas_nil, or_false] at h ⊢
  tauto

theorem unreachable_of_unknown {bits : Nat} (h : AnyHas ipv6Unknown bits) :
    AnyHas ipv6Unreachable bits := by
  simp only [ipv6Unreachable, ipv6Unknown, anyHas_cons, anyHas_nil, or_false] at h ⊢
  tauto

/-- The mapped form is apart from the blocks that are reachable, unknown or of another form. -/
theorem not_mapped {bits : Nat}
    (h : AnyHas (sixToFour :: ipv4Compatible :: nat64 :: (ipv6Unknown ++ ipv6Reachable)) bits) :
    ¬ ipv4Mapped.has bits = true := by
  simp only [ipv6Unknown, ipv6Reachable, List.cons_append, List.nil_append, anyHas_cons,
    anyHas_nil, or_false] at h
  simp only [sixToFour, ipv4Compatible, nat64, ipv4Mapped, v6Anycast, Block.has_iff, Block.first,
    v6Block, Ipv6Addr.toBits, BitVec.reduceToNat, Nat.reducePow, Nat.reduceMul, Nat.reduceAdd,
    Nat.reduceDiv, Nat.reduceSub] at h ⊢
  omega

theorem not_sixToFour {bits : Nat} (h : AnyHas [ipv4Mapped, ipv4Compatible, nat64] bits) :
    ¬ sixToFour.has bits = true := by
  simp only [anyHas_cons, anyHas_nil, or_false] at h
  simp only [sixToFour, ipv4Compatible, nat64, ipv4Mapped, Block.has_iff, Block.first, v6Block,
    Ipv6Addr.toBits, BitVec.reduceToNat, Nat.reducePow, Nat.reduceMul, Nat.reduceAdd,
    Nat.reduceDiv, Nat.reduceSub] at h ⊢
  omega

/-- The address that an IPv6 address embeds is allowed. -/
theorem embedded_allowed_iff (ip : Ipv6Addr) :
    (∀ v4, ip.embedded? = some v4 → isDisallowedIp (.v4 v4) = false) ↔
      (AnyHas [ipv4Mapped, ipv4Compatible, nat64] ip.toBits →
        ¬ AnyHas ipv4Refused (Ipv6Addr.embedded ip.s6 ip.s7).toBits) ∧
      (sixToFour.has ip.toBits = true →
        ¬ AnyHas ipv4Refused (Ipv6Addr.embedded ip.s1 ip.s2).toBits) := by
  have hrefused : ∀ v4 : Ipv4Addr, isDisallowedIp (.v4 v4) = false ↔
      ¬ AnyHas ipv4Refused v4.toBits := by
    intro v4
    rw [← isDisallowedIpv4_iff, Bool.not_eq_true]
    rfl
  simp only [hrefused, Ipv6Addr.embedded?]
  by_cases hlow : AnyHas [ipv4Mapped, ipv4Compatible, nat64] ip.toBits
  · have hno := not_sixToFour hlow
    simp [hlow, hno]
  · by_cases hsix : sixToFour.has ip.toBits = true
    · simp [hlow, hsix]
    · simp [hlow, hsix]

theorem publicUnicast_iff_v6 (ip : Ipv6Addr) :
    (isDisallowedIp (.v6 ip) = false → (IpAddr.v6 ip).PublicUnicast) ↔
      ¬ (IpAddr.v6 ip).Missed := by
  have hallowed : isDisallowedIp (.v6 ip) = false ↔ ¬ (AnyHas ipv6Refused ip.toBits ∨
      ipv4Mapped.has ip.toBits = true ∧
        AnyHas ipv4Refused (Ipv6Addr.embedded ip.s6 ip.s7).toBits) := by
    rw [← isDisallowedIpv6_iff, Bool.not_eq_true]
  rw [hallowed, IpAddr.PublicUnicast, embedded_allowed_iff, IpAddr.Missed]
  generalize AnyHas ipv4Refused (Ipv6Addr.embedded ip.s6 ip.s7).toBits = low
  generalize AnyHas ipv4Refused (Ipv6Addr.embedded ip.s1 ip.s2).toBits = high
  generalize ip.toBits = bits
  have hapart : ∀ {blocks : List (Block 128)}, AnyHas blocks bits →
      blocks ⊆ sixToFour :: ipv4Compatible :: nat64 :: (ipv6Unknown ++ ipv6Reachable) →
      ¬ ipv4Mapped.has bits = true := fun h hsub => not_mapped (AnyHas.mono h hsub)
  constructor
  · rintro h ⟨hrefused, hmissed⟩
    have hlet : ¬ (ipv4Mapped.has bits = true ∧ low) → _ :=
      fun hmapped => h (fun hor => hor.elim hrefused hmapped)
    rcases hmissed with ⟨hunknown, hreach⟩ | ⟨hmapped, hlow⟩ | ⟨hform, hlow⟩ | ⟨hsix, hhigh⟩
    · refine hreach ((hlet (fun hm => hapart hunknown ?_ hm.1)).1 (unreachable_of_unknown hunknown))
      exact fun block hb => by simp [hb]
    · have hunreachable : AnyHas ipv6Unreachable bits :=
        anyHas_of_mem (by simp [ipv6Unreachable]) hmapped
      refine hapart ((hlet (fun hm => hlow hm.2)).1 hunreachable) ?_ hmapped
      exact fun block hb => by simp [hb]
    · refine (hlet (fun hm => hapart hform ?_ hm.1)).2.2.1 ((anyHas_cons _ _ _).mpr (Or.inr hform))
        hlow
      exact fun block hb => by simp at hb; rcases hb with rfl | rfl <;> simp
    · refine (hlet (fun hm =>
        hapart (anyHas_of_mem (List.mem_singleton_self _) hsix) ?_ hm.1)).2.2.2
        hsix hhigh
      exact fun block hb => by simp at hb; simp [hb]
  · intro h hallowed
    have hrefused : ¬ AnyHas ipv6Refused bits := fun hr => hallowed (Or.inl hr)
    have hmapped : ipv4Mapped.has bits = true → False := by
      intro hm
      by_cases hlow : low
      · exact hallowed (Or.inr ⟨hm, hlow⟩)
      · exact h ⟨hrefused, Or.inr (Or.inl ⟨hm, hlow⟩)⟩
    refine ⟨fun hunreachable => ?_, fun hmulticast => ?_, fun hform hlow => ?_,
      fun hsix hhigh => ?_⟩
    · have hunknown :=
        ((refused_or_unknown (Or.inl hunreachable)).resolve_left hrefused).resolve_right hmapped
      exact Decidable.byContradiction (fun hreach => h ⟨hrefused, Or.inl ⟨hunknown, hreach⟩⟩)
    · refine hrefused (anyHas_of_mem ?_ hmulticast)
      simp [ipv6Refused]
    · have hother := ((anyHas_cons _ _ _).mp hform).resolve_left hmapped
      exact h ⟨hrefused, Or.inr (Or.inr (Or.inl ⟨hother, hlow⟩))⟩
    · exact h ⟨hrefused, Or.inr (Or.inr (Or.inr ⟨hsix, hhigh⟩))⟩

/-- The server lets only public unicast addresses through, but for the missed ones. -/
theorem publicUnicast_iff (ip : IpAddr) :
    (isDisallowedIp ip = false → ip.PublicUnicast) ↔ ¬ ip.Missed := by
  cases ip with
  | v4 ip => exact publicUnicast_iff_v4 ip
  | v6 ip => exact publicUnicast_iff_v6 ip

/-- A benchmarking address, and the form of NAT64 that leads to the loopback. -/
theorem lets_through : isDisallowedIp (.v4 ⟨198, 18, 0, 1⟩) = false ∧
    ¬ (IpAddr.v4 ⟨198, 18, 0, 1⟩).PublicUnicast ∧
    isDisallowedIp (.v6 ⟨0x64, 0xff9b, 0, 0, 0, 0, 0x7f00, 1⟩) = false ∧
    ¬ (IpAddr.v6 ⟨0x64, 0xff9b, 0, 0, 0, 0, 0x7f00, 1⟩).PublicUnicast := by
  refine ⟨by decide, fun h => h.2.2 (by decide), by decide, fun h => ?_⟩
  have hembedded := h.2.2 ⟨127, 0, 0, 1⟩ (by decide)
  revert hembedded
  decide

end Repartee.Web
