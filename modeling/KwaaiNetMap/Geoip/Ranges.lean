import KwaaiNetMap.Geoip.IpAddr

/-!
The ranges no provider is asked about, as blocks of addresses with a common prefix, and which of them
`isPublic` lets through: no IPv4 one (`isPublic_v4`), and the IPv6 ones of `Missed`
(`reserved_iff_missed`).
-/

namespace KwaaiNetMap.IpAddr

/-! ### Blocks -/

/-- The addresses that agree with `base` in the first `len` bits. -/
structure Block where
  base : Nat
  len : Nat

def Block.Contains (width : Nat) (block : Block) (address : Nat) : Prop :=
  address / 2 ^ (width - block.len) = block.base / 2 ^ (width - block.len)

instance (width : Nat) (block : Block) (address : Nat) : Decidable (block.Contains width address) :=
  inferInstanceAs (Decidable (_ = _))

def Within (width : Nat) (blocks : List Block) (address : Nat) : Prop :=
  ∃ block ∈ blocks, block.Contains width address

instance (width : Nat) (blocks : List Block) (address : Nat) : Decidable (Within width blocks address) :=
  inferInstanceAs (Decidable (∃ block ∈ blocks, _))

@[simp] theorem within_nil (width address : Nat) : ¬ Within width [] address := by
  simp [Within]

@[simp] theorem within_cons (width : Nat) (block : Block) (blocks : List Block) (address : Nat) :
    Within width (block :: blocks) address ↔ block.Contains width address ∨ Within width blocks address := by
  simp [Within]

@[simp] theorem within_append (width : Nat) (before after : List Block) (address : Nat) :
    Within width (before ++ after) address ↔ Within width before address ∨ Within width after address := by
  simp [Within, or_and_right, exists_or]

def quad (a b c d : Nat) : Nat := ((a * 256 + b) * 256 + c) * 256 + d

def groups (gs : List Nat) : Nat := gs.foldl (fun acc g => acc * 65536 + g) 0

/-! ### The ranges -/

def privateV4 : List Block := [⟨quad 10 0 0 0, 8⟩, ⟨quad 172 16 0 0, 12⟩, ⟨quad 192 168 0 0, 16⟩]

def loopbackV4 : List Block := [⟨quad 127 0 0 0, 8⟩]

def linkLocalV4 : List Block := [⟨quad 169 254 0 0, 16⟩]

def unspecifiedV4 : List Block := [⟨quad 0 0 0 0, 32⟩]

def documentationV4 : List Block :=
  [⟨quad 192 0 2 0, 24⟩, ⟨quad 198 51 100 0, 24⟩, ⟨quad 203 0 113 0, 24⟩]

def benchmarkingV4 : List Block := [⟨quad 198 18 0 0, 15⟩]

def carrierV4 : List Block := [⟨quad 100 64 0 0, 10⟩]

def reservedV4 : List Block :=
  privateV4 ++ loopbackV4 ++ linkLocalV4 ++ unspecifiedV4 ++ documentationV4 ++ benchmarkingV4 ++ carrierV4

def loopbackV6 : List Block := [⟨groups [0, 0, 0, 0, 0, 0, 0, 1], 128⟩]

def unspecifiedV6 : List Block := [⟨groups [0, 0, 0, 0, 0, 0, 0, 0], 128⟩]

def uniqueLocalV6 : List Block := [⟨groups [0xfc00, 0, 0, 0, 0, 0, 0, 0], 7⟩]

def linkLocalV6 : List Block := [⟨groups [0xfe80, 0, 0, 0, 0, 0, 0, 0], 10⟩]

def documentationV6 : List Block :=
  [⟨groups [0x2001, 0xdb8, 0, 0, 0, 0, 0, 0], 32⟩, ⟨groups [0x3fff, 0, 0, 0, 0, 0, 0, 0], 20⟩]

def benchmarkingV6 : List Block := [⟨groups [0x2001, 2, 0, 0, 0, 0, 0, 0], 48⟩]

def Ipv6.value (addr : Ipv6Addr) : Nat := groups (addr.segments.map UInt16.toNat)

def MappedReserved (address : Nat) : Prop :=
  address / 2 ^ 32 = 0xffff ∧ Within 32 reservedV4 (address % 2 ^ 32)

instance (address : Nat) : Decidable (MappedReserved address) := inferInstanceAs (Decidable (_ ∧ _))

def Reserved : IpAddr → Prop
  | v4 a b c d => Within 32 reservedV4 (quad a.toNat b.toNat c.toNat d.toNat)
  | v6 addr =>
    Within 128 (loopbackV6 ++ unspecifiedV6 ++ uniqueLocalV6 ++ linkLocalV6 ++ documentationV6 ++ benchmarkingV6)
      (Ipv6.value addr) ∨ MappedReserved (Ipv6.value addr)

def Missed : IpAddr → Prop
  | v4 _ _ _ _ => False
  | v6 addr =>
    Within 128 (linkLocalV6 ++ documentationV6 ++ benchmarkingV6) (Ipv6.value addr) ∨
      MappedReserved (Ipv6.value addr)

instance : (ip : IpAddr) → Decidable ip.Reserved
  | v4 _ _ _ _ => inferInstanceAs (Decidable (Within _ _ _))
  | v6 _ => inferInstanceAs (Decidable (_ ∨ _))

instance : (ip : IpAddr) → Decidable ip.Missed
  | v4 _ _ _ _ => inferInstanceAs (Decidable False)
  | v6 _ => inferInstanceAs (Decidable (_ ∨ _))

/-! ### IPv4 -/

section
variable {a b c d : UInt8}

theorem masked_benchmark (b : UInt8) : b &&& 0xfe = 18 ↔ b.toNat / 2 = 9 := by
  have all : ∀ n : Fin 256, UInt8.ofNat n.val &&& 0xfe = 18 ↔ n.val / 2 = 9 := by decide +kernel
  have here := all ⟨b.toNat, b.toNat_lt⟩
  rwa [UInt8.ofNat_toNat] at here

theorem isPrivate_of_within (inside : Within 32 privateV4 (quad a.toNat b.toNat c.toNat d.toNat)) :
    isPrivate a b = true := by
  have hb := b.toNat_lt
  have hc := c.toNat_lt
  have hd := d.toNat_lt
  simp [privateV4, Block.Contains, quad] at inside
  simp [isPrivate, ← UInt8.toNat_inj, UInt8.le_iff_toNat_le]
  omega

theorem isLoopback_of_within (inside : Within 32 loopbackV4 (quad a.toNat b.toNat c.toNat d.toNat)) :
    isLoopback a = true := by
  have hb := b.toNat_lt
  have hc := c.toNat_lt
  have hd := d.toNat_lt
  simp [loopbackV4, Block.Contains, quad] at inside
  simp [isLoopback, ← UInt8.toNat_inj]
  omega

theorem isLinkLocal_of_within (inside : Within 32 linkLocalV4 (quad a.toNat b.toNat c.toNat d.toNat)) :
    isLinkLocal a b = true := by
  have hb := b.toNat_lt
  have hc := c.toNat_lt
  have hd := d.toNat_lt
  simp [linkLocalV4, Block.Contains, quad] at inside
  simp [isLinkLocal, ← UInt8.toNat_inj]
  omega

theorem isUnspecified_of_within (inside : Within 32 unspecifiedV4 (quad a.toNat b.toNat c.toNat d.toNat)) :
    isUnspecified a b c d = true := by
  simp [unspecifiedV4, Block.Contains, quad] at inside
  simp [isUnspecified, ← UInt8.toNat_inj]
  omega

theorem isDocumentation_of_within (inside : Within 32 documentationV4 (quad a.toNat b.toNat c.toNat d.toNat)) :
    isDocumentation a b c = true := by
  have hb := b.toNat_lt
  have hc := c.toNat_lt
  have hd := d.toNat_lt
  simp [documentationV4, Block.Contains, quad] at inside
  simp [isDocumentation, ← UInt8.toNat_inj]
  omega

theorem benchmarking_of_within (inside : Within 32 benchmarkingV4 (quad a.toNat b.toNat c.toNat d.toNat)) :
    a = 198 ∧ b &&& 0xfe = 18 := by
  have hb := b.toNat_lt
  have hc := c.toNat_lt
  have hd := d.toNat_lt
  simp [benchmarkingV4, Block.Contains, quad] at inside
  refine ⟨?_, (masked_benchmark b).mpr (by omega)⟩
  simp [← UInt8.toNat_inj]
  omega

theorem carrier_of_within (inside : Within 32 carrierV4 (quad a.toNat b.toNat c.toNat d.toNat)) :
    a = 100 ∧ 64 ≤ b ∧ b < 128 := by
  have hb := b.toNat_lt
  have hc := c.toNat_lt
  have hd := d.toNat_lt
  simp [carrierV4, Block.Contains, quad] at inside
  simp [← UInt8.toNat_inj, UInt8.le_iff_toNat_le, UInt8.lt_iff_toNat_lt]
  omega

theorem isPublic_v4 (shown : (v4 a b c d).isPublic = true) : ¬ (v4 a b c d).Reserved := by
  intro reserved
  simp only [Reserved, reservedV4, within_append] at reserved
  rcases reserved with (((((inside | inside) | inside) | inside) | inside) | inside) | inside
  · simp [isPublic, isPrivate_of_within inside] at shown
  · simp [isPublic, isLoopback_of_within inside] at shown
  · simp [isPublic, isLinkLocal_of_within inside] at shown
  · simp [isPublic, isUnspecified_of_within inside] at shown
  · simp [isPublic, isDocumentation_of_within inside] at shown
  · simp [isPublic, benchmarking_of_within inside] at shown
  · simp [isPublic, carrier_of_within inside] at shown

end

/-! ### IPv6 -/

theorem masked_uniqueLocal (s : UInt16) : (s >>> 8) &&& 0xfe = 0xfc ↔ s.toNat / 512 = 126 := by
  have all : ∀ n : Fin 256, n.val &&& 0xfe = 0xfc ↔ n.val / 2 = 126 := by decide +kernel
  have bound := s.toNat_lt
  have byte : (s >>> 8).toNat = s.toNat / 256 := by simp [Nat.shiftRight_eq_div_pow]
  have here := all ⟨s.toNat / 256, by omega⟩
  rw [← UInt16.toNat_inj, UInt16.toNat_and, byte]
  have halved : s.toNat / 256 / 2 = s.toNat / 512 := by omega
  rw [← halved]
  exact here

theorem isPublic_v6 (addr : Ipv6Addr) :
    (v6 addr).isPublic = true ↔
      ¬ Within 128 (loopbackV6 ++ unspecifiedV6 ++ uniqueLocalV6) (Ipv6.value addr) := by
  obtain ⟨segments, size⟩ := addr
  match segments, size with
  | [s0, s1, s2, s3, s4, s5, s6, s7], size =>
    have h1 := s1.toNat_lt
    have h2 := s2.toNat_lt
    have h3 := s3.toNat_lt
    have h4 := s4.toNat_lt
    have h5 := s5.toNat_lt
    have h6 := s6.toNat_lt
    have h7 := s7.toNat_lt
    have loopback : [s0, s1, s2, s3, s4, s5, s6, s7] = [0, 0, 0, 0, 0, 0, 0, 1] ↔
        Ipv6.value ⟨[s0, s1, s2, s3, s4, s5, s6, s7], size⟩ = 1 := by
      simp [← UInt16.toNat_inj, Ipv6.value, groups]
      omega
    have unspecified : [s0, s1, s2, s3, s4, s5, s6, s7] = [0, 0, 0, 0, 0, 0, 0, 0] ↔
        Ipv6.value ⟨[s0, s1, s2, s3, s4, s5, s6, s7], size⟩ = 0 := by
      simp [← UInt16.toNat_inj, Ipv6.value, groups]
      omega
    have uniqueLocal : s0.toNat / 512 = 126 ↔
        Ipv6.value ⟨[s0, s1, s2, s3, s4, s5, s6, s7], size⟩ / 2 ^ 121 = 126 := by
      simp [Ipv6.value, groups]
      omega
    simp only [isPublic, List.headD_cons, masked_uniqueLocal, loopback, unspecified, uniqueLocal]
    simp [loopbackV6, unspecifiedV6, uniqueLocalV6, Block.Contains, groups, and_assoc]

theorem Missed.isPublic {ip : IpAddr} (missed : ip.Missed) : ip.isPublic = true := by
  cases ip with
  | v4 a b c d => exact missed.elim
  | v6 addr =>
    rw [isPublic_v6]
    simp only [Missed, MappedReserved] at missed
    simp [loopbackV6, unspecifiedV6, uniqueLocalV6, Block.Contains, groups]
    simp [linkLocalV6, documentationV6, benchmarkingV6, Block.Contains, groups] at missed
    rcases missed with (link | documentation | documentation | benchmarking) | ⟨mapped, -⟩ <;> omega

theorem reserved_iff_missed {ip : IpAddr} (shown : ip.isPublic = true) : ip.Reserved ↔ ip.Missed := by
  cases ip with
  | v4 a b c d => exact iff_of_false (isPublic_v4 shown) not_false
  | v6 addr =>
    have filtered := (isPublic_v6 addr).mp shown
    simp only [Reserved, Missed, within_append] at filtered ⊢
    tauto

end KwaaiNetMap.IpAddr
